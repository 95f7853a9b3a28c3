import Compliance.Document.Decode
import Compliance.Document.Encode
import Compliance.Proofs.Records

/-! Documents that are written and read again. Whatever form a document was read from, it is written
in one that says the same, and in which no key of a benchmark is repeated. -/
namespace Compliance
open Json (Decoder RecordField RecordShape Readable SortedKeys Inside Tree)

namespace Json
variable {α σ : Type}

namespace Decoder
variable {P : Nat → α → Prop} {d : Decoder α}

private theorem orDefault_of_ne_null {t : Tree} (h : t ≠ .null) (default : α) (depth : Nat) :
    orDefault default d depth t = d depth t := by
  rw [orDefault, optional_of_ne_null h]
  cases d depth t <;> rfl

theorem orDefault_restores {encode : α → Json} (h : d.Restores encode P)
    (hne : ∀ a, (encode a).tree ≠ .null) (default : α) :
    (orDefault default d).Restores encode P := by
  intro depth a ha
  rw [orDefault_of_ne_null (hne a)]
  exact h depth a ha

theorem orDefault_ensures {default : α} (h : d.Ensures P) (hdefault : ∀ depth, P depth default) :
    (orDefault default d).Ensures P := by
  intro depth t a ha
  obtain ⟨o, ho, rfl⟩ := ok_of_map ha
  cases o with
  | none => exact hdefault depth
  | some b => exact optional_ensures h depth t _ ho b rfl

/-- A value that is there is not `null`. -/
theorem optional_value_ensures :
    (optional Tree.value).Ensures fun depth o => ∀ v, o = some v → v ≠ .null ∧ Readable depth v := by
  intro depth t o h v hv
  refine ⟨?_, optional_ensures value_ensures depth t o h v hv⟩
  rintro rfl
  subst hv
  unfold optional at h
  split at h
  next => cases h
  next hne =>
    obtain ⟨w, hw, he⟩ := ok_of_map h
    cases he
    exact hne (Tree.eq_null_of_value hw)

theorem asText_restores : Restores asText .string fun _ _ => True := by
  intro depth s _
  rw [asText, tree, Tree.value, Quoted.text_ofText]
  rfl

end Decoder

private theorem treeMembers_append (ms ns : List (String × Json)) :
    treeMembers (ms ++ ns) = treeMembers ms ++ treeMembers ns := by
  rw [treeMembers_eq_map, treeMembers_eq_map, treeMembers_eq_map, List.map_append]

/-- A member that may be left out is stored when it is there. -/
theorem RecordShape.Fills.optional {r : RecordShape σ} {key : String} {f : RecordField σ}
    {depth : Nat} {seen : List String} {encode : α → Json} {o : Option α} {s out : σ}
    {rest : List (Quoted × Tree)} (set : Option α → σ) (hf : r.field? key = some f)
    (hseen : f.name ∉ seen) (hnone : s = set none)
    (hstore : ∀ a, o = some a → f.store depth (encode a).tree s = .ok (set (some a)))
    (h : r.Fills depth rest (if o.isSome then f.name :: seen else seen) (set o) out) :
    r.Fills depth (treeMembers (optionalMember key encode o) ++ rest) seen s out := by
  cases o with
  | none => exact hnone ▸ h
  | some a => exact .field hf hseen (hstore a rfl) h

end Json

namespace Reference

private theorem decoder_restores : shape.decoder.Restores toJson (Inside fun _ _ => True) := by
  intro depth r h
  cases depth with
  | zero => cases h
  | succ depth =>
    have hsystem := Decoder.string_restores depth r.system trivial
    have hvalue := Decoder.asText_restores depth r.value trivial
    refine RecordShape.Fills.decoder ?_ rfl
    exact .field rfl nofun (RecordField.of_store hsystem _)
      (.field rfl (by decide) (RecordField.of_store hvalue _) .nil)

end Reference

namespace RuleRecord

/-- Declared totals of 64 bits, which all that are read have. -/
def Sound (r : RuleRecord) : Prop := ∀ n ∈ r.declared, n < 0x10000000000000000

private theorem keeps_sound : shape.Keeps fun _ r => r.Sound where
  fields := by
    have hdeclared : (Decoder.orDefault [] (Decoder.list (Decoder.natural "u64"))).Ensures
        fun _ ns => ∀ n ∈ ns, n < 0x10000000000000000 := by
      refine Decoder.orDefault_ensures (fun depth t ns h => ?_) (fun _ => nofun)
      have := Decoder.list_ensures (Decoder.natural_ensures "u64") depth t ns h
      cases depth with
      | zero => cases this
      | succ depth => exact this
    simp only [shape, List.forall_mem_cons]
    exact ⟨.of Decoder.ensures_true fun _ _ _ _ h => h,
      .of Decoder.ensures_true fun _ _ _ _ h => h,
      .of Decoder.ensures_true fun _ _ _ _ h => h,
      .of Decoder.ensures_true fun _ _ _ _ h => h,
      .of hdeclared fun _ _ _ h _ => h, nofun⟩
  others := nofun

private theorem decoder_restores :
    shape.decoder.Restores toJson (Inside fun depth r => 2 ≤ depth ∧ r.Sound) := by
  intro depth r h
  match depth with
  | depth + 1 =>
    obtain ⟨hdepth, hsound⟩ := h
    match depth with
    | depth + 2 =>
    have hid := Decoder.string_restores (depth + 2) r.id trivial
    have htitle := Decoder.string_restores (depth + 2) r.title trivial
    have hdescription := Decoder.orDefault_restores Decoder.string_restores nofun "" (depth + 2)
      r.description trivial
    have hreferences := Decoder.orDefault_restores (Decoder.list_restores Reference.decoder_restores)
      nofun [] (depth + 2) r.references fun _ _ => trivial
    have hdeclared := Decoder.orDefault_restores
      (Decoder.list_restores (Decoder.natural_restores "u64")) nofun [] (depth + 2) r.declared hsound
    refine RecordShape.Fills.decoder ?_ rfl
    exact .field rfl nofun (RecordField.of_store hid _)
      (.field rfl (by decide) (RecordField.of_store htitle _)
      (.field rfl (by decide) (RecordField.of_store hdescription _)
      (.field rfl (by decide) (RecordField.of_store hreferences _)
      (.field rfl (by decide) (RecordField.of_store hdeclared _) .nil))))

end RuleRecord

namespace TargetRecord

/-- Results that can be read where the record was read. -/
def Sound (depth : Nat) (t : TargetRecord) : Prop :=
  ∀ vs, t.results = some vs → Inside (fun depth vs => ∀ v ∈ vs, Readable depth v) depth vs

def freeNumbers (t : TargetRecord) : List Number := Json.itemNumbers (t.results.getD [])

private theorem keeps_sound : shape.Keeps Sound where
  fields := by
    have hresults := Decoder.optional_ensures (Decoder.list_ensures Decoder.value_ensures)
    simp only [shape, List.forall_mem_cons]
    exact ⟨.of Decoder.ensures_true fun _ _ _ _ h => h,
      .of Decoder.ensures_true fun _ _ _ _ h => h,
      .of Decoder.ensures_true fun _ _ _ _ h => h,
      .of hresults fun _ _ _ h _ => h, nofun⟩
  others := nofun

private theorem Sound.restorable {depth : Nat} {t : TargetRecord} (h : t.Sound depth)
    (hwhole : ∀ n ∈ t.freeNumbers, n.IsWhole) (vs : List Json) (hvs : t.results = some vs) :
    Inside (fun depth vs => ∀ v ∈ vs, Readable depth v ∧ ∀ n ∈ v.numbers, n.IsWhole) depth vs := by
  have hvalues := h vs hvs
  rw [freeNumbers, hvs, Option.getD_some, Json.itemNumbers_eq_flatMap] at hwhole
  match depth with
  | depth + 1 =>
    exact fun v hv => ⟨hvalues v hv, fun n hn => hwhole n (List.mem_flatMap.mpr ⟨v, hv, hn⟩)⟩

private theorem decoder_restores : shape.decoder.Restores toJson
    (Inside fun depth t => t.Sound depth ∧ ∀ n ∈ t.freeNumbers, n.IsWhole) := by
  intro depth t h
  match depth with
  | depth + 1 =>
    obtain ⟨hsound, hwhole⟩ := h
    have hname := Decoder.string_restores depth t.name trivial
    have htext : ∀ s, Decoder.optional Decoder.string depth (Json.string s).tree = .ok (some s) :=
      fun s => Decoder.optional_restores Decoder.string_restores nofun trivial
    have hresults : ∀ vs, t.results = some vs →
        Decoder.optional (Decoder.list Tree.value) depth (Json.array vs).tree = .ok (some vs) := by
      intro vs hvs
      have hlist := Decoder.optional_restores (Decoder.list_restores Decoder.value_restores) nofun
        (hsound.restorable hwhole vs hvs)
      rwa [List.map_id] at hlist
    refine RecordShape.Fills.decoder ?_ rfl
    have hmembers : Json.treeMembers (("friendly_name", .string t.name)
        :: Json.optionalMember "status_detail" .string t.statusDetail
        ++ Json.optionalMember "error_trace" .string t.errorTrace
        ++ Json.optionalMember "rule_results" .array t.results) =
          (.ofText "friendly_name", (Json.string t.name).tree) ::
            (Json.treeMembers (Json.optionalMember "status_detail" .string t.statusDetail)
            ++ (Json.treeMembers (Json.optionalMember "error_trace" .string t.errorTrace)
            ++ (Json.treeMembers (Json.optionalMember "rule_results" .array t.results) ++ []))) := by
      simp only [List.cons_append, List.append_assoc, Json.treeMembers_append, Json.treeMembers,
        List.append_nil]
    rw [hmembers]
    exact .field rfl nofun (RecordField.of_store hname _)
      (.optional (fun o => ⟨t.name, o, none, none⟩) rfl (by decide) rfl
        (fun a _ => RecordField.of_store (htext a) _)
      (.optional (fun o => ⟨t.name, t.statusDetail, o, none⟩) rfl (by split <;> decide) rfl
        (fun a _ => RecordField.of_store (htext a) _)
      (.optional (fun o => ⟨t.name, t.statusDetail, t.errorTrace, o⟩) rfl
        (by split <;> split <;> decide) rfl (fun vs h => RecordField.of_store (hresults vs h) _)
      .nil)))

end TargetRecord

namespace Benchmark

/-- The names of the fields, and their second names. -/
def fieldNames : List String :=
  ["benchmark_title", "title", "xccdf_version", "version", "xccdf_id", "id", "profile_name",
    "profile"]

/-- What all benchmarks have in common that are read. -/
structure Sound (depth : Nat) (b : Benchmark) : Prop where
  version : ∀ v, b.version = some v → v ≠ .null ∧ Readable depth v
  sorted : SortedKeys b.extra
  readable : ∀ m ∈ b.extra, Readable depth m.2
  apart : ∀ m ∈ b.extra, m.1 ∉ fieldNames

def freeNumbers (b : Benchmark) : List Number :=
  (b.version.map Json.numbers).getD [] ++ Json.memberNumbers b.extra

private theorem field_eq_none_iff {key : String} : shape.field? key = none ↔ key ∉ fieldNames := by
  have hnames : shape.fields.all (fun f => (f.name :: f.aliases).all (· ∈ fieldNames)) = true := rfl
  have hfields : ∀ name ∈ fieldNames, (shape.field? name).isSome = true := by decide
  constructor
  · intro hnone hkey
    have hsome := hfields key hkey
    rw [hnone] at hsome
    cases hsome
  · intro hkey
    refine List.find?_eq_none.mpr fun f hf hmatch => hkey ?_
    have hown := List.all_eq_true.mp (List.all_eq_true.mp hnames f hf)
    rcases of_decide_eq_true hmatch with rfl | halias
    · exact of_decide_eq_true (hown _ List.mem_cons_self)
    · exact of_decide_eq_true (hown key (List.mem_cons_of_mem _ halias))

private theorem Sound.insert {depth : Nat} {b : Benchmark} (h : b.Sound depth) {key : String}
    {v : Json} (hkey : key ∉ fieldNames) (hv : Readable depth v) :
    Sound depth { b with extra := Json.insertMember key v b.extra } where
  version := h.version
  sorted := Json.sortedKeys_insertMember h.sorted key v
  readable := by
    intro m hm
    rcases Json.mem_insertMember hm with rfl | hm
    · exact hv
    · exact h.readable m hm
  apart := by
    intro m hm
    rcases Json.mem_insertMember hm with rfl | hm
    · exact hkey
    · exact h.apart m hm

private theorem keeps_sound : shape.Keeps Sound where
  fields := by
    simp only [shape, List.forall_mem_cons]
    refine ⟨.orNamed (.of Decoder.ensures_true ?_) _,
      .orNamed (.of Decoder.optional_value_ensures ?_) _, .orNamed (.of Decoder.ensures_true ?_) _,
      .orNamed (.of Decoder.ensures_true ?_) _, nofun⟩
    · exact fun _ _ _ _ h => ⟨h.version, h.sorted, h.readable, h.apart⟩
    · exact fun _ _ _ hv h => ⟨hv, h.sorted, h.readable, h.apart⟩
    · exact fun _ _ _ _ h => ⟨h.version, h.sorted, h.readable, h.apart⟩
    · exact fun _ _ _ _ h => ⟨h.version, h.sorted, h.readable, h.apart⟩
  others := by
    rintro store hstore depth key v b hkey hv hb
    cases hstore
    exact hb.insert (field_eq_none_iff.mp hkey) hv

/-- Members that are no fields come after those that have been kept. -/
private theorem fills_extra {depth : Nat} {seen : List String} (b : Benchmark)
    (ms : List (String × Json)) (hsorted : SortedKeys (b.extra ++ ms))
    (hvalue : ∀ m ∈ ms, m.2.tree.value depth = .ok m.2) (hapart : ∀ m ∈ ms, m.1 ∉ fieldNames) :
    shape.Fills depth (Json.treeMembers ms) seen b { b with extra := b.extra ++ ms } := by
  induction ms generalizing b with
  | nil =>
    rw [List.append_nil]
    exact .nil
  | cons m ms ih =>
    obtain ⟨k, v⟩ := m
    obtain ⟨hv, hvalues⟩ := List.forall_mem_cons.mp hvalue
    obtain ⟨hk, hkeys⟩ := List.forall_mem_cons.mp hapart
    have hlast : ∀ m ∈ b.extra, m.1 < k := fun m hm =>
      (List.pairwise_append.mp hsorted).2.2 m hm (k, v) List.mem_cons_self
    have hmore := ih { b with extra := b.extra ++ [(k, v)] } (by simpa using hsorted) hvalues hkeys
    refine .keep rfl (field_eq_none_iff.mpr hk) hv ?_
    rw [Json.insertMember_of_forall_lt hlast]
    simpa using hmore

private theorem Sound.version_restored {depth : Nat} {b : Benchmark} (h : b.Sound depth)
    (hwhole : ∀ n ∈ b.freeNumbers, n.IsWhole) (v : Json) (hv : b.version = some v) :
    Decoder.optional Tree.value depth v.tree = .ok (some v) := by
  obtain ⟨hne, hread⟩ := h.version v hv
  have hnumbers := (List.forall_mem_append.mp hwhole).1
  rw [hv] at hnumbers
  rw [Decoder.optional_of_ne_null (mt Json.eq_null_of_tree hne),
    Json.value_tree depth v hread hnumbers]
  rfl

private theorem Sound.extra_restored {depth : Nat} {b : Benchmark} (h : b.Sound depth)
    (hwhole : ∀ n ∈ b.freeNumbers, n.IsWhole) (m : String × Json) (hm : m ∈ b.extra) :
    m.2.tree.value depth = .ok m.2 := by
  have hnumbers := (List.forall_mem_append.mp hwhole).2
  refine Json.value_tree depth m.2 (h.readable m hm) fun n hn => hnumbers n ?_
  rw [Json.memberNumbers_eq_flatMap]
  exact List.mem_flatMap.mpr ⟨m, hm, hn⟩

private theorem decoder_restores : shape.decoder.Restores toJson
    (Inside fun depth b => b.Sound depth ∧ ∀ n ∈ b.freeNumbers, n.IsWhole) := by
  intro depth b h
  match depth with
  | depth + 1 =>
    obtain ⟨hsound, hwhole⟩ := h
    have htext := fun s => Decoder.string_restores depth s trivial
    have hextra := fun seen => @fills_extra depth seen ⟨b.title, b.version, b.id, b.profile, []⟩
      b.extra hsound.sorted (hsound.extra_restored hwhole) hsound.apart
    have hmembers : Json.treeMembers (("benchmark_title", .string b.title)
        :: Json.optionalMember "xccdf_version" (fun v => v) b.version
        ++ ("xccdf_id", .string b.id) :: ("profile_name", .string b.profile) :: b.extra) =
          (.ofText "benchmark_title", (Json.string b.title).tree) ::
            (Json.treeMembers (Json.optionalMember "xccdf_version" (fun v => v) b.version)
            ++ ((.ofText "xccdf_id", (Json.string b.id).tree) ::
              (.ofText "profile_name", (Json.string b.profile).tree) ::
              Json.treeMembers b.extra)) := by
      simp only [List.cons_append, Json.treeMembers_append, Json.treeMembers]
    refine RecordShape.Fills.decoder ?_ rfl
    rw [hmembers]
    exact .field rfl nofun (RecordField.orNamed_store (RecordField.of_store (htext b.title) _) _)
      (.optional (fun o => ⟨b.title, o, "", "", []⟩) rfl (by decide) rfl
        (fun v h => RecordField.orNamed_store
          (RecordField.of_store (hsound.version_restored hwhole v h) _) _)
      (.field rfl (by split <;> decide)
        (RecordField.orNamed_store (RecordField.of_store (htext b.id) _) _)
      (.field rfl (by split <;> decide)
        (RecordField.orNamed_store (RecordField.of_store (htext b.profile) _) _)
      (hextra _))))

/-- The written form repeats no key, because no member is kept under the name of a field. -/
private theorem Sound.exists_toJson {depth : Nat} {b : Benchmark} (h : b.Sound depth) :
    ∃ ms, b.toJson = .object ms ∧ (ms.map Prod.fst).Nodup := by
  have hextra : (b.extra.map Prod.fst).Nodup := by
    rw [List.Nodup, List.pairwise_map]
    refine h.sorted.imp fun {m n} hlt he => ?_
    rw [he] at hlt
    exact String.lt_irrefl n.1 hlt
  have happend : ∀ names : List String, names.Nodup → (∀ name ∈ names, name ∈ fieldNames) →
      (names ++ b.extra.map Prod.fst).Nodup := by
    intro names hnames hfields
    refine List.nodup_append.mpr ⟨hnames, hextra, fun name hname key hkey he => ?_⟩
    obtain ⟨m, hm, rfl⟩ := List.mem_map.mp hkey
    exact h.apart m hm (he ▸ hfields name hname)
  refine ⟨_, rfl, ?_⟩
  cases b.version with
  | none => exact happend ["benchmark_title", "xccdf_id", "profile_name"] (by decide) (by decide)
  | some v =>
    exact happend ["benchmark_title", "xccdf_version", "xccdf_id", "profile_name"] (by decide)
      (by decide)

end Benchmark

namespace Document

/-- What all documents have in common that are read. -/
structure Sound (depth : Nat) (d : Document) : Prop where
  benchmark : ∀ b, d.benchmark = some b → Inside Benchmark.Sound depth b
  rules : ∀ rs, d.rules = some rs →
    Inside (fun depth rs => ∀ r ∈ rs, Inside (fun _ r => RuleRecord.Sound r) depth r) depth rs
  targets : ∀ ts, d.targets = some ts →
    Inside (fun depth ts => ∀ t ∈ ts, Inside TargetRecord.Sound depth t) depth ts

def freeNumbers (d : Document) : List Number :=
  (d.benchmark.map Benchmark.freeNumbers).getD []
    ++ (d.targets.getD []).flatMap TargetRecord.freeNumbers

private theorem keeps_sound : shape.Keeps Sound where
  fields := by
    have hbenchmark := Decoder.optional_ensures (Benchmark.keeps_sound.decoder fun _ =>
      ⟨nofun, .nil, nofun, nofun⟩)
    have hrules := Decoder.optional_ensures (Decoder.list_ensures
      (RuleRecord.keeps_sound.decoder fun _ => nofun))
    have htargets := Decoder.optional_ensures (Decoder.list_ensures
      (TargetRecord.keeps_sound.decoder fun _ => nofun))
    simp only [shape, List.forall_mem_cons]
    refine ⟨.of hbenchmark ?_, .of hrules ?_, .of htargets ?_, nofun⟩
    · exact fun _ _ _ hb h => ⟨hb, h.rules, h.targets⟩
    · exact fun _ _ _ hr h => ⟨h.benchmark, hr, h.targets⟩
    · exact fun _ _ _ ht h => ⟨h.benchmark, h.rules, ht⟩
  others := nofun

/-- A document that is read lies inside the first bracket. -/
theorem parse_sound {text : String} {d : Document} (h : parse text = .ok d) : d.Sound 126 := by
  unfold parse Decoder.run at h
  obtain ⟨d', hd, h⟩ := Json.ok_of_bind h
  have hsound := keeps_sound.decoder (fun _ => ⟨nofun, nofun, nofun⟩) _ _ _ hd
  split at h
  next => cases h
  next => cases h; exact hsound

private theorem decoder_restores {depth : Nat} {d : Document} (hdepth : 4 ≤ depth)
    (h : d.Sound depth) (hwhole : ∀ n ∈ d.freeNumbers, n.IsWhole) :
    shape.decoder (depth + 1) d.toJson.tree = .ok d := by
  rw [freeNumbers, List.forall_mem_append] at hwhole
  match depth with
  | depth + 4 =>
  have hbenchmark : Decoder.optional Benchmark.shape.decoder (depth + 4)
      ((d.benchmark.map Benchmark.toJson).getD .null).tree = .ok d.benchmark := by
    refine Decoder.optional_getD Benchmark.decoder_restores nofun fun b hb => ?_
    refine ⟨h.benchmark b hb, ?_⟩
    have hnumbers := hwhole.1
    rwa [hb] at hnumbers
  have hrules : Decoder.optional (Decoder.list RuleRecord.shape.decoder) (depth + 4)
      ((d.rules.map fun rs => Json.array (rs.map RuleRecord.toJson)).getD .null).tree
        = .ok d.rules := by
    refine Decoder.optional_getD (Decoder.list_restores RuleRecord.decoder_restores) nofun
      fun rs hrs r hr => ⟨by omega, h.rules rs hrs r hr⟩
  have htargets : Decoder.optional (Decoder.list TargetRecord.shape.decoder) (depth + 4)
      ((d.targets.map fun ts => Json.array (ts.map TargetRecord.toJson)).getD .null).tree
        = .ok d.targets := by
    refine Decoder.optional_getD (Decoder.list_restores TargetRecord.decoder_restores) nofun
      fun ts hts t ht => ⟨h.targets ts hts t ht, fun n hn => hwhole.2 n ?_⟩
    rw [hts]
    exact List.mem_flatMap.mpr ⟨t, ht, hn⟩
  refine RecordShape.Fills.decoder ?_ rfl
  exact .field rfl nofun (RecordField.of_store hbenchmark _)
    (.field rfl (by decide) (RecordField.of_store hrules _)
    (.field rfl (by decide) (RecordField.of_store htargets _) .nil))

/-- A document without doubles among its free values is read back as it was, and every benchmark that
is read has its members under keys of their own. -/
theorem parse_render {text : String} {d : Document} (h : parse text = .ok d) :
    ((∀ n ∈ d.freeNumbers, n.IsWhole) → parse d.render = .ok d) ∧
    ∀ b, d.benchmark = some b →
      (∀ m ∈ b.extra, m.1 ∉ ["benchmark_title", "title", "xccdf_version", "version", "xccdf_id",
        "id", "profile_name", "profile"]) ∧
      ∃ ms, b.toJson = .object ms ∧ (ms.map Prod.fst).Nodup := by
  have hsound := parse_sound h
  refine ⟨fun hwhole => ?_, fun b hb => ?_⟩
  · rw [parse, render, Decoder.run_compact]
    exact decoder_restores (by decide) hsound hwhole
  · have hbenchmark : b.Sound 125 := hsound.benchmark b hb
    exact ⟨hbenchmark.apart, hbenchmark.exists_toJson⟩

/-- Second names, an array in place of a record, `null` and a number for texts, and other members. -/
def anyForm : String :=
  "\x7b\"benchmark\":\x7b\"version\":[1],\"profile\":\"p\","
    ++ "\"zone\":\x7b\"b\":-1,\"a\":null\x7d,\"team\":\"x\"\x7d,"
    ++ "\"rules\":[[\"r1\",\"R\",null,[[\"cve\",7],\x7b\"value\":null\x7d]]],"
    ++ "\"targets\":[\x7b\"rule_results\":[1,\"pass\"]\x7d],\"more\":0\x7d"

def anyFormRead : Document where
  benchmark := some ⟨"", some (.array [.ofNat 1]), "", "p",
    [("team", .string "x"), ("zone", .object [("a", .null), ("b", .number (.integer (-1)))])]⟩
  rules := some [⟨"r1", "R", "", [⟨"cve", "7"⟩, ⟨"", ""⟩], []⟩]
  targets := some [⟨"", none, none, some [.ofNat 1, .string "pass"]⟩]

theorem parse_render_anyForm :
    parse anyForm = .ok anyFormRead ∧ parse anyFormRead.render = .ok anyFormRead := by
  have h : parse anyForm = .ok anyFormRead := Json.ok_of_toOption (by decide +kernel)
  exact ⟨h, (parse_render h).1 (by decide)⟩

end Document
end Compliance
