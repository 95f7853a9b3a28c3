import Compliance.Decimal.Literal
import Compliance.Proofs.Trimming

/-! The grammar of decimal literals. A text is read as a literal exactly if it spells it: an optional
sign, and then digits with a point and an exponent, or one of the words. No text spells two. -/
namespace Compliance.Decimal.Literal

def Digits (ds : List Char) : Prop := ∀ c ∈ ds, isDigit c = true

inductive SignText : Bool → List Char → Prop where
  | absent : SignText false []
  | plus : SignText false ['+']
  | minus : SignText true ['-']

/-- An optional exponent. One digit at least follows its letter and sign. -/
inductive ExponentText : Int → List Char → Prop where
  | absent : ExponentText 0 []
  | written {c : Char} {negative : Bool} {s ds : List Char} (letter : c = 'e' ∨ c = 'E')
      (sign : SignText negative s) (digits : Digits ds) (present : ds ≠ []) :
      ExponentText (if negative then -(ofDigits ds : Int) else ofDigits ds) (c :: (s ++ ds))

/-- Digits with at most one point among them, which may be the first or the last of all but may not
stand alone. The digits and the number of decimals are told apart. -/
inductive Mantissa : List Char → Nat → List Char → Prop where
  | whole {ds : List Char} (digits : Digits ds) (present : ds ≠ []) : Mantissa ds 0 ds
  | pointed {ds es : List Char} (whole : Digits ds) (decimals : Digits es)
      (present : ds ++ es ≠ []) :
      Mantissa (ds ++ es) es.length (ds ++ '.' :: es)

/-- The spellings of a literal. -/
inductive Spells : List Char → Literal → Prop where
  | number {negative : Bool} {k : Nat} {n : Int} {s ds m e : List Char} (sign : SignText negative s)
      (mantissa : Mantissa ds k m) (exponent : ExponentText n e) :
      Spells (s ++ (m ++ e)) (.finite negative (ofDigits ds) (n - k))
  | infinite {negative : Bool} {s w : List Char} (sign : SignText negative s)
      (word : w.map Char.toLower = "inf".toList ∨ w.map Char.toLower = "infinity".toList) :
      Spells (s ++ w) (.infinite negative)
  | notANumber {negative : Bool} {s w : List Char} (sign : SignText negative s)
      (word : w.map Char.toLower = "nan".toList) : Spells (s ++ w) .notANumber

section
variable {cs ds es s : List Char} {negative : Bool}

/-- Whether a text starts with no sign. -/
def Unsigned (cs : List Char) : Prop := ∀ c, cs.head? = some c → c ≠ '+' ∧ c ≠ '-'

private theorem exists_signText (cs : List Char) :
    ∃ s, SignText (sign cs).1 s ∧ cs = s ++ (sign cs).2 := by
  unfold sign
  split
  next => exact ⟨_, .minus, rfl⟩
  next => exact ⟨_, .plus, rfl⟩
  next => exact ⟨_, .absent, rfl⟩

private theorem sign_append (h : SignText negative s) (hcs : Unsigned cs) :
    sign (s ++ cs) = (negative, cs) := by
  cases h with
  | plus => rfl
  | minus => rfl
  | absent =>
    rw [List.nil_append]
    unfold sign
    split
    next => exact absurd rfl (hcs _ rfl).2
    next => exact absurd rfl (hcs _ rfl).1
    next => rfl

private theorem isDigit_ne {c d : Char} (hc : isDigit c = true) (hd : isDigit d = false) :
    c ≠ d := by
  rintro rfl
  rw [hc] at hd
  cases hd

private theorem Digits.unsigned (h : Digits ds) (hne : ds ≠ []) (rest : List Char) :
    Unsigned (ds ++ rest) := by
  cases ds with
  | nil => exact absurd rfl hne
  | cons d ds =>
    rintro c ⟨⟩
    have hd := h d List.mem_cons_self
    exact ⟨isDigit_ne hd (by decide), isDigit_ne hd (by decide)⟩

private theorem digits_takeWhile (cs : List Char) : Digits (cs.takeWhile isDigit) :=
  fun _ hc => List.mem_takeWhile_imp hc

private theorem exponent?_eq_some_iff {n : Int} : exponent? cs = some n ↔ ExponentText n cs := by
  constructor
  · intro h
    cases cs with
    | nil =>
      cases h
      exact .absent
    | cons c rest =>
      obtain ⟨s, hs, hrest⟩ := exists_signText rest
      unfold exponent? at h
      simp only at h
      split at h
      next hc =>
        cases h
        obtain ⟨letter, present, digits⟩ := hc
        have htext := ExponentText.written letter hs (List.all_eq_true.mp digits) present
        rwa [← hrest] at htext
      next => cases h
  · intro h
    cases h with
    | absent => rfl
    | written letter sign digits present =>
      have hunsigned := digits.unsigned present []
      rw [List.append_nil] at hunsigned
      unfold exponent?
      simp only [sign_append sign hunsigned]
      exact if_pos ⟨letter, present, List.all_eq_true.mpr digits⟩

/-- Whether a text can follow digits without going on with them: it starts with no digit. -/
def EndsDigits (cs : List Char) : Prop := ∀ c, cs.head? = some c → isDigit c = false

private theorem endsDigits_dropWhile (cs : List Char) :
    EndsDigits (cs.dropWhile isDigit) := fun c hc => by
  have h := List.head?_dropWhile_not isDigit cs
  rw [hc] at h
  simpa using h

private theorem Digits.takeWhile_append (h : Digits ds) (hcs : EndsDigits cs) :
    (ds ++ cs).takeWhile isDigit = ds := by
  have hnil : cs.takeWhile isDigit = [] := by
    cases cs with
    | nil => rfl
    | cons c cs => exact List.takeWhile_cons_of_neg (by simp [hcs c rfl])
  rw [List.takeWhile_append_of_pos h, hnil, List.append_nil]

private theorem Digits.dropWhile_append (h : Digits ds) (hcs : EndsDigits cs) :
    (ds ++ cs).dropWhile isDigit = cs := Text.dropWhile_append_of_head h hcs

private theorem ExponentText.endsDigits {n : Int} (h : ExponentText n cs) :
    EndsDigits cs ∧ cs.head? ≠ some '.' := by
  cases h with
  | absent => exact ⟨nofun, nofun⟩
  | written letter =>
    rcases letter with rfl | rfl
    · refine ⟨?_, by simp⟩
      rintro c ⟨⟩
      decide
    · refine ⟨?_, by simp⟩
      rintro c ⟨⟩
      decide

private theorem number?_whole (hds : Digits ds) (hcs : EndsDigits cs)
    (hpoint : cs.head? ≠ some '.') :
    number? negative (ds ++ cs) =
      if ds = [] then none
      else (exponent? cs).map fun n => .finite negative (ofDigits ds) (n - (0 : Nat)) := by
  unfold number?
  simp only [hds.takeWhile_append hcs, hds.dropWhile_append hcs]
  split
  next rest => exact absurd rfl hpoint
  next => simp only [and_true, List.append_nil, List.length_nil]

private theorem number?_pointed (hds : Digits ds) (hes : Digits es) (hcs : EndsDigits cs) :
    number? negative (ds ++ '.' :: (es ++ cs)) =
      if ds ++ es = [] then none
      else (exponent? cs).map fun n => .finite negative (ofDigits (ds ++ es)) (n - es.length) := by
  have hpoint : EndsDigits ('.' :: (es ++ cs)) := by
    rintro c ⟨⟩
    decide
  unfold number?
  simp only [hds.takeWhile_append hpoint, hds.dropWhile_append hpoint, hes.takeWhile_append hcs,
    hes.dropWhile_append hcs, List.append_eq_nil_iff]

/-- A number without its sign is read as it is spelled. -/
private theorem number?_eq_some_iff {l : Literal} : number? negative cs = some l ↔
    ∃ ds k m n e, Mantissa ds k m ∧ ExponentText n e ∧ cs = m ++ e ∧
      l = .finite negative (ofDigits ds) (n - k) := by
  constructor
  · intro h
    have hwhole := digits_takeWhile cs
    have hends := endsDigits_dropWhile cs
    rw [← List.takeWhile_append_dropWhile (p := isDigit) (l := cs)] at h ⊢
    generalize cs.takeWhile isDigit = ds at h hwhole ⊢
    generalize cs.dropWhile isDigit = rest at h hends ⊢
    by_cases hpoint : rest.head? = some '.'
    · obtain ⟨rest, rfl⟩ : ∃ tail, rest = '.' :: tail := List.head?_eq_some_iff.mp hpoint
      have hdecimals := digits_takeWhile rest
      have hends := endsDigits_dropWhile rest
      rw [← List.takeWhile_append_dropWhile (p := isDigit) (l := rest)] at h ⊢
      generalize rest.takeWhile isDigit = es at h hdecimals ⊢
      generalize rest.dropWhile isDigit = e at h hends ⊢
      rw [number?_pointed hwhole hdecimals hends] at h
      split at h
      next => cases h
      next present =>
        obtain ⟨n, hn, rfl⟩ := Option.map_eq_some_iff.mp h
        exact ⟨_, _, _, n, e, .pointed hwhole hdecimals present, exponent?_eq_some_iff.mp hn,
          by rw [List.append_assoc, List.cons_append], rfl⟩
    · rw [number?_whole hwhole hends hpoint] at h
      split at h
      next => cases h
      next present =>
        obtain ⟨n, hn, rfl⟩ := Option.map_eq_some_iff.mp h
        exact ⟨_, _, _, n, rest, .whole hwhole present, exponent?_eq_some_iff.mp hn, rfl, rfl⟩
  · rintro ⟨ds, k, m, n, e, hm, he, rfl, rfl⟩
    obtain ⟨hends, hpoint⟩ := he.endsDigits
    cases hm with
    | whole digits present =>
      rw [number?_whole digits hends hpoint, if_neg present, exponent?_eq_some_iff.mpr he]
      rfl
    | pointed whole decimals present =>
      rw [List.append_assoc, List.cons_append, number?_pointed whole decimals hends, if_neg present,
        exponent?_eq_some_iff.mpr he]
      rfl

private theorem toLower_of_isDigit {c : Char} (h : isDigit c = true) : c.toLower = c := by
  have hle : c.val ≤ '9'.val := (Bool.and_eq_true_iff.mp h).2 |> of_decide_eq_true
  exact dif_neg fun hc => absurd (UInt32.le_trans hc.1 hle) (by decide)

/-- A number has a digit in it. -/
private theorem Mantissa.exists_digit {k : Nat} {m : List Char} (h : Mantissa ds k m) :
    ∃ c ∈ m, isDigit c = true := by
  cases h with
  | whole digits present =>
    obtain ⟨c, hc⟩ := List.exists_mem_of_ne_nil ds present
    exact ⟨c, hc, digits c hc⟩
  | pointed whole decimals present =>
    obtain ⟨c, hc⟩ := List.exists_mem_of_ne_nil _ present
    rcases List.mem_append.mp hc with hc | hc
    · exact ⟨c, List.mem_append_left _ hc, whole c hc⟩
    · exact ⟨c, List.mem_append_right _ (List.mem_cons_of_mem _ hc), decimals c hc⟩

private theorem Mantissa.unsigned {k : Nat} {m : List Char} (h : Mantissa ds k m)
    (rest : List Char) :
    Unsigned (m ++ rest) := by
  cases h with
  | whole digits present => exact digits.unsigned present rest
  | @pointed ds es whole =>
    by_cases hds : ds = []
    · rw [hds]
      rintro c ⟨⟩
      exact ⟨by decide, by decide⟩
    · rw [List.append_assoc]
      exact whole.unsigned hds _

/-- The words that stand for no number of digits, in small letters. -/
def words : List String := ["inf", "infinity", "nan"]

private theorem mem_of_words {word : String} (hword : word ∈ words) {c : Char}
    (hc : c ∈ word.toList) :
    isDigit c = false ∧ c ≠ '+' ∧ c ≠ '-' := by
  have hall : ∀ word ∈ words, word.toList.all (fun c => !isDigit c && (c != '+' && c != '-')) = true := by
    decide
  have h := List.all_eq_true.mp (hall word hword) c hc
  simpa only [Bool.and_eq_true, Bool.not_eq_true', bne_iff_ne] using h

/-- No word has a digit in it, and none begins with a sign. -/
theorem word_unsigned {w : List Char} {word : String} (hword : word ∈ words)
    (hw : w.map Char.toLower = word.toList) :
    Unsigned w ∧ ∀ c ∈ w, isDigit c = false := by
  have hletter : ∀ c ∈ w, isDigit c.toLower = false ∧ c.toLower ≠ '+' ∧ c.toLower ≠ '-' :=
    fun c hc => mem_of_words hword (hw ▸ List.mem_map_of_mem hc)
  refine ⟨fun c hc => ⟨?_, ?_⟩, fun c hc => Bool.eq_false_iff.mpr fun hdigit => ?_⟩
  · rintro rfl
    exact (hletter _ (List.mem_of_head? hc)).2.1 rfl
  · rintro rfl
    exact (hletter _ (List.mem_of_head? hc)).2.2 rfl
  · have hfalse := (hletter c hc).1
    rw [toLower_of_isDigit hdigit, hdigit] at hfalse
    cases hfalse

/-- The digit in it tells a number from the words. -/
private theorem Mantissa.ne_word {k : Nat} {m : List Char} (h : Mantissa ds k m) (rest : List Char)
    {word : String} (hword : word ∈ words) : (m ++ rest).map Char.toLower ≠ word.toList := by
  intro hw
  obtain ⟨c, hc, hdigit⟩ := h.exists_digit
  have hfalse := (word_unsigned hword hw).2 c (List.mem_append_left _ hc)
  rw [hdigit] at hfalse
  cases hfalse

private theorem ofList_eq_iff {w : List Char} {word : String} :
    String.ofList w = word ↔ w = word.toList := by
  rw [← String.toList_inj, String.toList_ofList]

private theorem mem_words : "inf" ∈ words ∧ "infinity" ∈ words ∧ "nan" ∈ words := by decide

/-- What is read is spelled, and only that. -/
theorem parse?_eq_some_iff {l : Literal} : parse? cs = some l ↔ Spells cs l := by
  obtain ⟨hinf, hinfinity, hnan⟩ := mem_words
  constructor
  · intro h
    obtain ⟨s, hs, hcs⟩ := exists_signText cs
    rw [hcs]
    unfold parse? at h
    generalize hsign : sign cs = split at h hs ⊢
    obtain ⟨negative, rest⟩ := split
    simp only [ofList_eq_iff] at h
    split at h
    next hword =>
      cases h
      exact .infinite hs hword
    next =>
      split at h
      next hword =>
        cases h
        exact .notANumber hs hword
      next =>
        obtain ⟨ds, k, m, n, e, hm, he, rfl, rfl⟩ := number?_eq_some_iff.mp h
        exact .number hs hm he
  · intro h
    unfold parse?
    simp only [ofList_eq_iff]
    cases h with
    | infinite sign word =>
      have hunsigned := word.elim (fun h => (word_unsigned hinf h).1)
        fun h => (word_unsigned hinfinity h).1
      simp only [sign_append sign hunsigned]
      exact if_pos word
    | notANumber sign word =>
      simp only [sign_append sign (word_unsigned hnan word).1, word]
      rfl
    | number hs hm he =>
      simp only [sign_append hs (hm.unsigned _)]
      rw [if_neg (not_or.mpr ⟨hm.ne_word _ hinf, hm.ne_word _ hinfinity⟩), if_neg (hm.ne_word _ hnan)]
      exact number?_eq_some_iff.mpr ⟨_, _, _, _, _, hm, he, rfl, rfl⟩

/-- No text spells two literals. -/
theorem Spells.unique {l l' : Literal} (h : Spells cs l) (h' : Spells cs l') : l = l' :=
  Option.some.inj ((parse?_eq_some_iff.mpr h).symm.trans (parse?_eq_some_iff.mpr h'))

end

end Compliance.Decimal.Literal
