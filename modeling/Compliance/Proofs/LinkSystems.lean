import Compliance.Link.Resolve
import Compliance.Proofs.LetterCase
import Mathlib.Data.List.Forall2

/-! Configured systems. They come after the built-in ones and one after the other, so a longer list answers
as its first part does wherever that part has an answer. The letter case of a system does not matter. -/
namespace Compliance.Link

/-- Two systems that differ in the letter case of their names at most. -/
structure SameButCase (c d : LinkSystem) : Prop where
  system : Text.SameLetters c.system d.system
  urlPrefix : c.urlPrefix = d.urlPrefix
  urlSuffix : c.urlSuffix = d.urlSuffix

/-- The address that a configured system has for a reference, if it is the system of the reference. -/
def addressIn (r : Reference) (c : LinkSystem) : Option String :=
  if Text.lowercase c.system = Text.lowercase r.system then
    some (c.urlPrefix ++ r.value ++ c.urlSuffix)
  else none

/-- The systems are asked in their order, the built-in ones first. -/
theorem url_eq (custom : List LinkSystem) (r : Reference) : url custom r
    = ((builtIn.lookup (Text.lowercase r.system)).map fun rule => rule.url r.value).or
      (custom.findSome? (addressIn r)) := by
  unfold url
  dsimp only
  cases builtIn.lookup (Text.lowercase r.system) with
  | some rule => rfl
  | none =>
    dsimp only
    rw [Option.map_none, Option.none_or]
    induction custom with
    | nil => rfl
    | cons c custom ih =>
      rw [List.find?_cons, List.findSome?_cons, addressIn]
      by_cases hc : Text.lowercase c.system = Text.lowercase r.system
      · rw [if_pos hc, decide_eq_true hc]
        rfl
      · rw [if_neg hc, decide_eq_false hc]
        exact ih

private theorem url_append (A B : List LinkSystem) (r : Reference) :
    url (A ++ B) r = (url A r).or (url B r) := by
  rw [url_eq, url_eq, url_eq, List.findSome?_append]
  cases (builtIn.lookup (Text.lowercase r.system)).map fun rule => rule.url r.value with
  | some u => rfl
  | none => simp only [Option.none_or]

/-- Configured systems come after the built-in ones. -/
private theorem url_of_builtIn (A : List LinkSystem) {r : Reference} {u : String}
    (h : url [] r = some u) :
    url A r = some u := by
  have hparts := url_append [] A r
  rwa [h, Option.some_or, List.nil_append] at hparts

private theorem url_of_mem_builtIn {e : String × LinkRule} (he : e ∈ builtIn) {r : Reference}
    (h : Text.SameLetters r.system e.1) : url [] r = some (e.2.url r.value) := by
  have hkeys : ∀ e ∈ builtIn, builtIn.lookup (Text.lowercase e.1) = some e.2 := by decide +kernel
  rw [url_eq, Text.lowercase_congr h, hkeys e he, Option.map_some, Option.some_or]

/-- The first configured system that matches decides. -/
private theorem url_of_first {before after : List LinkSystem} {c : LinkSystem} {r : Reference}
    (hbefore : url before r = none) (hc : Text.lowercase c.system = Text.lowercase r.system) :
    url (before ++ c :: after) r = some (c.urlPrefix ++ r.value ++ c.urlSuffix) := by
  rw [url_append, hbefore, Option.none_or, url_eq]
  rw [url_eq, Option.or_eq_none_iff] at hbefore
  rw [hbefore.1, Option.none_or, List.findSome?_cons, addressIn, if_pos hc]

private theorem addressIn_congr {c d : LinkSystem} (hcd : SameButCase c d) {r r' : Reference}
    (hsystem : Text.SameLetters r.system r'.system) (hvalue : r.value = r'.value) :
    addressIn r c = addressIn r' d := by
  rw [addressIn, addressIn, Text.lowercase_congr hcd.system, Text.lowercase_congr hsystem,
    hcd.urlPrefix, hcd.urlSuffix, hvalue]

private theorem url_congr {A A' : List LinkSystem}
    (hA : List.Forall₂ SameButCase A A') {r r' : Reference}
    (hsystem : Text.SameLetters r.system r'.system) (hvalue : r.value = r'.value) :
    url A r = url A' r' := by
  have hcustom : A.findSome? (addressIn r) = A'.findSome? (addressIn r') := by
    induction hA with
    | nil => rfl
    | cons hcd _ ih =>
      rw [List.findSome?_cons, List.findSome?_cons, addressIn_congr hcd hsystem hvalue, ih]
  rw [url_eq, url_eq, hcustom, Text.lowercase_congr hsystem, hvalue]

/-- Configured systems extend the built-in ones. Of two lists the second one answers where the first has
no answer; a system that is built in keeps its address in any letter case, and of the configured ones the
first that matches decides; and letter case, in the reference or in the list, changes no address. -/
theorem url_extends (A B : List LinkSystem) (r : Reference) :
    url (A ++ B) r = (url A r).or (url B r) ∧
    (∀ u, (display [] r).url = some u → url A r = some u) ∧
    (∀ e ∈ builtIn, Text.SameLetters r.system e.1 → url A r = some (e.2.url r.value)) ∧
    (∀ before c after, A = before ++ c :: after → url before r = none →
      Text.lowercase c.system = Text.lowercase r.system →
      url A r = some (c.urlPrefix ++ r.value ++ c.urlSuffix)) ∧
    ∀ A' r', List.Forall₂ SameButCase A A' → Text.SameLetters r.system r'.system →
      r.value = r'.value → url A r = url A' r' := by
  refine ⟨url_append A B r, fun u => url_of_builtIn A, fun e he hsystem => ?_, ?_,
    fun A' r' hA => url_congr hA⟩
  · exact url_of_builtIn A (url_of_mem_builtIn he hsystem)
  · rintro before c after rfl
    exact url_of_first

/-- Two systems of one name, in which the sigma ends a word after a letter of either case, and a
reference that has the final form. -/
theorem url_extends_finalSigma :
    url ([⟨"no", "n/", ""⟩, ⟨"KBΣ", "k/", ".html"⟩] ++ [⟨"kbς", "l/", ""⟩]) ⟨"kBς", "7"⟩
      = some "k/7.html" ∧
    url [⟨"NO", "n/", ""⟩, ⟨"kbΣ", "k/", ".html"⟩] ⟨"Kbς", "7"⟩ = some "k/7.html" ∧
    url [⟨"http://cve.mitre.org", "k/", ""⟩] ⟨"HTTP://cve.mitre.ORG", "CVE-1"⟩
      = some "http://web.nvd.nist.gov/view/vuln/detail?vulnId=CVE-1" := by
  obtain ⟨happend, _, _, hfirst, hcase⟩ := url_extends [⟨"no", "n/", ""⟩, ⟨"KBΣ", "k/", ".html"⟩]
    [⟨"kbς", "l/", ""⟩] ⟨"kBς", "7"⟩
  have hsigma := hfirst [⟨"no", "n/", ""⟩] ⟨"KBΣ", "k/", ".html"⟩ [] rfl (by decide +kernel)
    (by decide +kernel)
  have hsame := hcase [⟨"NO", "n/", ""⟩, ⟨"kbΣ", "k/", ".html"⟩] ⟨"Kbς", "7"⟩
    (.cons ⟨by decide, rfl, rfl⟩ (.cons ⟨by decide, rfl, rfl⟩ .nil)) (by decide) rfl
  refine ⟨?_, ?_, ?_⟩
  · rw [happend, hsigma]
    rfl
  · rw [← hsame, hsigma]
    rfl
  · obtain ⟨_, _, hbuiltIn, _⟩ :=
      url_extends [⟨"http://cve.mitre.org", "k/", ""⟩] [] ⟨"HTTP://cve.mitre.ORG", "CVE-1"⟩
    exact hbuiltIn
      ("http://cve.mitre.org", .around "http://web.nvd.nist.gov/view/vuln/detail?vulnId=" "")
      (by decide) (by decide)

end Compliance.Link
