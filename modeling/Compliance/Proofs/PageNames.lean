import Compliance.Link.Resolve
import Mathlib.Data.List.SplitBy

/-! The page names of advisories. The revision is found and cut off by offsets, and the name is written in
one walk with a flag; it is the advisory without its revision, in which each longest run of characters
other than letters and digits has become one hyphen. -/
namespace Compliance.Errata

/-- A text and what is left of it without its revision: a hyphen at which nothing but digits follows, and
one at least. -/
inductive Unrevised : List Char → List Char → Prop where
  | cut {base digits : List Char} (some_digit : digits ≠ [])
      (only_digits : ∀ c ∈ digits, c.isDigit) : Unrevised (base ++ '-' :: digits) base
  | whole {cs : List Char} (no_revision : ∀ base digits, cs = base ++ '-' :: digits →
      digits ≠ [] → ¬ ∀ c ∈ digits, c.isDigit) : Unrevised cs cs

def sameKind (a b : Char) : Bool := isWordChar a == isWordChar b

/-- The longest runs of a text that are words, or that have no letter or digit. -/
def runs (cs : List Char) : List (List Char) := cs.splitBy sameKind

/-- What is written for a run. -/
def runText (run : List Char) : List Char := if run.all isWordChar then run else ['-']

/-- The name of a page: what is written for the runs of a text. From this it follows which characters are
in it, and where the hyphens are. -/
structure PageName (base name : List Char) : Prop where
  runs : name = (runs base).flatMap runText
  characters : ∀ c ∈ name, isWordChar c ∨ c = '-'
  apart : name.IsChain fun a b => ¬ (a = '-' ∧ b = '-')
  words : name.filter (· ≠ '-') = base.filter isWordChar
  first : name.head? = some '-' ↔ ∃ c, base.head? = some c ∧ ¬ isWordChar c
  last : name.getLast? = some '-' ↔ ∃ c, base.getLast? = some c ∧ ¬ isWordChar c

/-- The last occurrence of a character divides a text in one way only. -/
theorem append_cons_inj_of_notMem {stop : Char} {as bs cs ds : List Char} (hb : stop ∉ bs)
    (hd : stop ∉ ds) (h : as ++ stop :: bs = cs ++ stop :: ds) : as = cs ∧ bs = ds := by
  rcases List.append_eq_append_iff.mp h with ⟨mid, rfl, hmid⟩ | ⟨mid, rfl, hmid⟩
  · cases mid with
    | nil => exact ⟨(List.append_nil as).symm, (List.cons.inj hmid).2⟩
    | cons c mid =>
      rw [(List.cons.inj hmid).2] at hb
      exact absurd (List.mem_append_right mid List.mem_cons_self) hb
  · cases mid with
    | nil => exact ⟨List.append_nil cs, (List.cons.inj hmid).2.symm⟩
    | cons c mid =>
      rw [(List.cons.inj hmid).2] at hd
      exact absurd (List.mem_append_right mid List.mem_cons_self) hd

private theorem notMem_of_digits {digits : List Char} (h : ∀ c ∈ digits, c.isDigit) :
    '-' ∉ digits :=
  fun hmem => absurd (h '-' hmem) (by decide)

private theorem Unrevised.unique {cs base base' : List Char} (h : Unrevised cs base)
    (h' : Unrevised cs base') :
    base = base' := by
  generalize hcs : cs = cs' at h'
  cases h with
  | cut some_digit only_digits =>
    cases h' with
    | cut some_digit' only_digits' =>
      exact (append_cons_inj_of_notMem (notMem_of_digits only_digits)
        (notMem_of_digits only_digits') hcs).1
    | whole no_revision => exact absurd only_digits (no_revision _ _ hcs.symm some_digit)
  | whole no_revision =>
    cases h' with
    | cut some_digit only_digits => exact absurd only_digits (no_revision _ _ hcs some_digit)
    | whole _ => exact hcs

/-- The cuts are made, and they leave the text without its revision. -/
private theorem withoutRevision?_unrevised (cs : List Char) :
    ∃ base, withoutRevision? cs = some base ∧ Unrevised cs base := by
  rcases withoutRevision?_cases cs with ⟨hno, h⟩ | ⟨before, after, rfl, hlast, h⟩
  · refine ⟨cs, h, .whole ?_⟩
    rintro base digits rfl
    exact absurd (List.mem_append_right base List.mem_cons_self) hno
  · by_cases hdigits : after ≠ [] ∧ after.all Char.isDigit
    · rw [if_pos hdigits] at h
      exact ⟨before, h, .cut hdigits.1 (List.all_eq_true.mp hdigits.2)⟩
    · rw [if_neg hdigits] at h
      refine ⟨_, h, .whole fun base digits heq hne hall => hdigits ?_⟩
      obtain ⟨_, rfl⟩ := append_cons_inj_of_notMem hlast (notMem_of_digits hall) heq
      exact ⟨hne, List.all_eq_true.mpr hall⟩

private theorem not_isWordChar_hyphen : ¬ isWordChar '-' := by decide

section
variable {run : List Char}

private theorem joinWords_words (h : ∀ c ∈ run, isWordChar c) (rest : List Char) :
    joinWords false (run ++ rest) = run ++ joinWords false rest := by
  induction run with
  | nil => rfl
  | cons c run ih =>
    obtain ⟨hc, hrun⟩ := List.forall_mem_cons.mp h
    rw [List.cons_append, joinWords, if_pos hc, ih hrun, List.cons_append]

private theorem joinWords_separators (h : ∀ c ∈ run, ¬ isWordChar c) (rest : List Char) :
    joinWords true (run ++ rest) = joinWords true rest := by
  induction run with
  | nil => rfl
  | cons c run ih =>
    obtain ⟨hc, hrun⟩ := List.forall_mem_cons.mp h
    rw [List.cons_append, joinWords, if_neg hc, if_pos rfl, ih hrun]

/-- Before a letter or digit, and at the end, it does not matter whether a run goes on. -/
private theorem joinWords_of_head {cs : List Char} (h : ∀ c ∈ cs.head?, isWordChar c) :
    joinWords true cs = joinWords false cs := by
  cases cs with
  | nil => rfl
  | cons c cs => rw [joinWords, joinWords, if_pos (h c rfl), if_pos (h c rfl)]

end

private theorem isWordChar_of_isChain {c : Char} {cs : List Char}
    (h : (c :: cs).IsChain fun a b => sameKind a b)
    {d : Char} (hd : d ∈ c :: cs) : isWordChar d = isWordChar c := by
  induction cs generalizing c with
  | nil => rw [List.mem_singleton.mp hd]
  | cons e cs ih =>
    obtain ⟨hce, hcs⟩ := List.isChain_cons_cons.mp h
    rcases List.mem_cons.mp hd with rfl | hd
    · rfl
    · rw [ih hcs hd]
      exact (beq_iff_eq.mp hce).symm

/-- After a run of other characters comes a letter or digit, if anything does. -/
private theorem isWordChar_of_mem_head? {run : List Char} (hrun : ∀ c ∈ run, ¬ isWordChar c)
    {rs : List (List Char)} (h : ∀ next ∈ rs.head?, ∃ ha hb,
      sameKind (run.getLast ha) (next.head hb) = false) : ∀ c ∈ rs.flatten.head?, isWordChar c := by
  cases rs with
  | nil => nofun
  | cons next rs =>
    obtain ⟨hne, hnext, hkind⟩ := h next rfl
    cases next with
    | nil => exact absurd rfl hnext
    | cons d next =>
      intro c hc
      obtain rfl := Option.some.inj hc
      by_contra hd
      rw [sameKind, List.head_cons, Bool.of_not_eq_true hd,
        Bool.of_not_eq_true (hrun _ (List.getLast_mem hne))] at hkind
      cases hkind

/-- Runs that are uniform and differ from their neighbours are written one by one. -/
private theorem joinWords_flatten {rs : List (List Char)} (hne : [] ∉ rs)
    (huniform : ∀ run ∈ rs, run.IsChain fun a b => sameKind a b)
    (hapart : rs.IsChain fun a b => ∃ ha hb, sameKind (a.getLast ha) (b.head hb) = false) :
    joinWords false rs.flatten = rs.flatMap runText := by
  induction rs with
  | nil => rfl
  | cons run rs ih =>
    obtain ⟨hrun, hrs⟩ := not_or.mp fun h => hne (List.mem_cons.mpr h)
    obtain ⟨hfirst, hlater⟩ := List.isChain_cons.mp hapart
    have hrest := ih hrs (fun r hr => huniform r (List.mem_cons_of_mem run hr)) hlater
    cases run with
    | nil => exact absurd rfl hrun
    | cons c run =>
      have hkind := fun d hd => isWordChar_of_isChain (huniform _ List.mem_cons_self) (d := d) hd
      rw [List.flatten_cons, List.flatMap_cons, ← hrest, runText]
      cases hc : isWordChar c with
      | true =>
        have hwords : ∀ d ∈ c :: run, isWordChar d := fun d hd => (hkind d hd).trans hc
        rw [joinWords_words hwords, if_pos (List.all_eq_true.mpr hwords)]
      | false =>
        have hsep : ∀ d ∈ c :: run, ¬ isWordChar d := fun d hd => by rw [hkind d hd, hc]; decide
        have hnot : ¬ (c :: run).all isWordChar := fun h => hsep c List.mem_cons_self
          (List.all_eq_true.mp h c List.mem_cons_self)
        rw [if_neg hnot, List.cons_append, joinWords, if_neg (hsep c List.mem_cons_self), if_neg (by decide),
          joinWords_separators (fun d hd => hsep d (List.mem_cons_of_mem c hd)), List.singleton_append]
        exact congrArg ('-' :: ·) (joinWords_of_head (isWordChar_of_mem_head? hsep hfirst))

private theorem joinWords_runs (cs : List Char) :
    joinWords false cs = (runs cs).flatMap runText := by
  have h := joinWords_flatten (List.nil_notMem_splitBy sameKind cs)
    (fun _ => List.isChain_of_mem_splitBy) (List.isChain_getLast_head_splitBy sameKind cs)
  rwa [List.flatten_splitBy] at h

/-- Whether a text, read on from a run or not, ends in such a run. -/
def inRunAfter (inRun : Bool) (cs : List Char) : Bool := cs.foldl (fun _ c => !isWordChar c) inRun

private theorem joinWords_append (inRun : Bool) (cs ds : List Char) :
    joinWords inRun (cs ++ ds) = joinWords inRun cs ++ joinWords (inRunAfter inRun cs) ds := by
  induction cs generalizing inRun with
  | nil => rfl
  | cons c cs ih =>
    rw [List.cons_append, joinWords, joinWords, inRunAfter, List.foldl_cons]
    cases hc : isWordChar c with
    | true => exact congrArg (c :: ·) (ih false)
    | false =>
      cases inRun with
      | true => exact ih true
      | false => exact congrArg ('-' :: ·) (ih true)

private theorem mem_joinWords {inRun : Bool} {cs : List Char} {c : Char}
    (h : c ∈ joinWords inRun cs) :
    isWordChar c ∨ c = '-' := by
  induction cs generalizing inRun with
  | nil => cases h
  | cons d cs ih =>
    rw [joinWords] at h
    split at h
    · rename_i hd
      rcases List.mem_cons.mp h with rfl | h
      · exact .inl hd
      · exact ih h
    · split at h
      · exact ih h
      · rcases List.mem_cons.mp h with rfl | h
        · exact .inr rfl
        · exact ih h

/-- In a run nothing starts with a hyphen. -/
private theorem head?_joinWords_true (cs : List Char) : (joinWords true cs).head? ≠ some '-' := by
  induction cs with
  | nil => nofun
  | cons c cs ih =>
    rw [joinWords, if_pos rfl]
    split
    · rename_i hc
      rw [List.head?_cons, ne_eq, Option.some_inj]
      rintro rfl
      exact not_isWordChar_hyphen hc
    · exact ih

private theorem isChain_joinWords (inRun : Bool) (cs : List Char) :
    (joinWords inRun cs).IsChain fun a b => ¬ (a = '-' ∧ b = '-') := by
  induction cs generalizing inRun with
  | nil => exact .nil
  | cons c cs ih =>
    rw [joinWords]
    split
    · rename_i hc
      refine List.isChain_cons.mpr ⟨?_, ih false⟩
      rintro d _ ⟨rfl, _⟩
      exact not_isWordChar_hyphen hc
    · split
      · exact ih true
      · refine List.isChain_cons.mpr ⟨?_, ih true⟩
        rintro d hd ⟨_, rfl⟩
        exact head?_joinWords_true cs hd

private theorem filter_joinWords (inRun : Bool) (cs : List Char) :
    (joinWords inRun cs).filter isWordChar = cs.filter isWordChar := by
  induction cs generalizing inRun with
  | nil => rfl
  | cons c cs ih =>
    rw [joinWords]
    split
    · rename_i hc
      rw [List.filter_cons_of_pos hc, List.filter_cons_of_pos hc, ih]
    · rename_i hc
      rw [List.filter_cons_of_neg hc]
      split
      · exact ih true
      · rw [List.filter_cons_of_neg not_isWordChar_hyphen, ih]

private theorem head?_joinWords (cs : List Char) :
    (joinWords false cs).head? = some '-' ↔ ∃ c, cs.head? = some c ∧ ¬ isWordChar c := by
  cases cs with
  | nil => exact iff_of_false nofun nofun
  | cons c cs =>
    have hhead : (∃ d, (c :: cs).head? = some d ∧ ¬ isWordChar d) ↔ ¬ isWordChar c := by
      simp only [List.head?_cons, Option.some_inj, exists_eq_left']
    rw [hhead, joinWords, if_neg Bool.false_ne_true]
    split
    · rename_i hc
      refine iff_of_false ?_ (not_not_intro hc)
      rw [List.head?_cons, Option.some_inj]
      rintro rfl
      exact not_isWordChar_hyphen hc
    · rename_i hc
      exact iff_of_true rfl hc

private theorem inRunAfter_concat (inRun : Bool) (cs : List Char) (c : Char) :
    inRunAfter inRun (cs ++ [c]) = !isWordChar c := by
  rw [inRunAfter, List.foldl_append, List.foldl_cons, List.foldl_nil]

private theorem inRunAfter_iff (cs : List Char) :
    inRunAfter false cs = true ↔ ∃ c, cs.getLast? = some c ∧ ¬ isWordChar c := by
  rcases List.eq_nil_or_concat' cs with rfl | ⟨cs, c, rfl⟩
  · exact iff_of_false nofun nofun
  · rw [inRunAfter_concat, List.getLast?_concat]
    simp only [Option.some_inj, exists_eq_left', Bool.not_eq_true', Bool.not_eq_true]

private theorem getLast?_joinWords (cs : List Char) :
    (joinWords false cs).getLast? = some '-' ↔ ∃ c, cs.getLast? = some c ∧ ¬ isWordChar c := by
  -- the end of a name shows which character was read last, so the last one is taken off
  induction cs using List.reverseRecOn with
  | nil => exact iff_of_false nofun nofun
  | append_singleton cs c ih =>
    rw [← inRunAfter_iff] at ih ⊢
    rw [inRunAfter_concat, joinWords_append, joinWords, joinWords, joinWords]
    cases hc : isWordChar c with
    | true =>
      refine iff_of_false ?_ Bool.false_ne_true
      rw [if_pos rfl, List.getLast?_concat, Option.some_inj]
      rintro rfl
      exact not_isWordChar_hyphen hc
    | false =>
      refine iff_of_true ?_ rfl
      cases hrun : inRunAfter false cs with
      | true =>
        rw [if_neg Bool.false_ne_true, if_pos rfl, List.append_nil]
        exact ih.mpr hrun
      | false =>
        rw [if_neg Bool.false_ne_true, if_neg Bool.false_ne_true, List.getLast?_concat]

private theorem joinWords_pageName (base : List Char) : PageName base (joinWords false base) where
  runs := joinWords_runs base
  characters _ := mem_joinWords
  apart := isChain_joinWords false base
  words := by
    rw [← filter_joinWords false base]
    refine List.filter_congr fun c hc => ?_
    rcases mem_joinWords hc with hword | rfl
    · rw [hword, decide_eq_true_eq]
      rintro rfl
      exact not_isWordChar_hyphen hword
    · decide
  first := head?_joinWords base
  last := getLast?_joinWords base

/-- The page of an advisory is found without a cut inside a character, whatever the advisory is. Its name
is written run by run for the advisory without its revision, and in the address that is made of it the name
has nothing by which a part of an address ends. -/
theorem slug_pageName (advisory : String) :
    ∃ base, (∀ cs, Unrevised advisory.toList cs ↔ cs = base) ∧
      slug? advisory = some (slug advisory) ∧ PageName base (slug advisory).toList ∧
      ∀ (systems : List LinkSystem) (system : String),
        Text.lowercase system = "http://rhn.redhat.com/errata" →
        Link.url systems ⟨system, advisory⟩
            = some ("http://rhn.redhat.com/errata/" ++ slug advisory ++ ".html") ∧
          ∀ c ∈ ['/', '.', '"', '\'', ' '], c ∉ (slug advisory).toList := by
  obtain ⟨base, hbase, hunrevised⟩ := withoutRevision?_unrevised advisory.toList
  have hslug : slug advisory = String.ofList (joinWords false base) := by
    have h := slug?_eq advisory
    rw [slug?, hbase, Option.map_some] at h
    exact (Option.some.inj h).symm
  have hname : PageName base (slug advisory).toList := by
    rw [hslug, String.toList_ofList]
    exact joinWords_pageName base
  refine ⟨base, fun cs => ⟨fun h => h.unique hunrevised, ?_⟩, slug?_eq advisory, hname,
    fun systems system hsystem => ⟨?_, ?_⟩⟩
  · rintro rfl
    exact hunrevised
  · rw [Link.url, hsystem]
    rfl
  · intro c hc hmem
    have hplain : ['/', '.', '"', '\'', ' '].all (fun c => !(isWordChar c || c == '-')) := by decide
    have hnot := List.all_eq_true.mp hplain c hc
    rcases hname.characters c hmem with hword | rfl
    · rw [hword] at hnot
      cases hnot
    · cases hnot

/-- An advisory with characters of several bytes beside both cuts. -/
theorem slug_pageName_wideCharacters :
    slug "日本:7-é-01" = "-7-" ∧
    (∃ base, Unrevised "日本:7-é-01".toList base ∧ PageName base "-7-".toList) ∧
    Link.url [] ⟨"HTTP://RHN.redhat.com/Errata", "日本:7-é-01"⟩
      = some "http://rhn.redhat.com/errata/-7-.html" := by
  have hslug : slug "日本:7-é-01" = "-7-" := by decide
  have hsystem : Text.lowercase "HTTP://RHN.redhat.com/Errata" = "http://rhn.redhat.com/errata" := by
    decide
  obtain ⟨base, hbase, _, hname, haddress⟩ := slug_pageName "日本:7-é-01"
  have hurl := (haddress [] _ hsystem).1
  rw [hslug] at hname hurl
  exact ⟨hslug, ⟨base, (hbase base).mpr rfl, hname⟩, hurl⟩

end Compliance.Errata
