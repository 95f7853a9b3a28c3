import Compliance.Proofs.Escaping

/-! The fragment of a reference, as somebody reads it who knows where a fragment has its delimiters and
not what was put between them. The texts in it cannot be mistaken for delimiters, so the address and the
text are found where they were put. -/
namespace Compliance.ReferenceDisplay
open Html (Inert escape escapeChars)

/-- The fragment of a link. The address stands from the opening of the tag up to the first quote, the text
from there up to the first bracket, and all brackets are those of the four tags. -/
structure LinkFragment (url text : String) (cs : List Char) : Prop where
  parts : ∃ afterOpening afterTags,
    cs = "<a href=\"".toList ++ afterOpening ∧
    afterOpening.span (· ≠ '"')
      = ((escape url).toList, "\" target=\"_blank\"><nobr>".toList ++ afterTags) ∧
    afterTags.span (· ≠ '<') = ((escape text).toList, "</nobr></a>".toList)
  content : Inert (escape text).toList
  brackets : cs.filter (· ∈ ['<', '>']) = "<><><><>".toList

/-- The fragment of a display: only its text, or a link. -/
structure Reads (d : ReferenceDisplay) (cs : List Char) : Prop where
  plain : d.url = none → cs = (escape d.text).toList ∧ Inert cs
  link : ∀ url, d.url = some url → LinkFragment url d.text cs

private theorem span_delimiter {stop : Char} {cs : List Char} (h : stop ∉ cs) (rest : List Char) :
    (cs ++ stop :: rest).span (· ≠ stop) = (cs, stop :: rest) := by
  have hall : ∀ c ∈ cs, decide (c ≠ stop) = true := by
    rintro c hc
    rw [decide_eq_true_eq]
    rintro rfl
    exact h hc
  rw [List.span_eq_takeWhile_dropWhile, List.takeWhile_append_of_pos hall,
    List.dropWhile_append_of_pos hall, List.takeWhile_cons_of_neg (by simp),
    List.dropWhile_cons_of_neg (by simp), List.append_nil]

private theorem notMem_escape {c : Char} (hc : c ∈ ['<', '>', '"', '\'']) (s : String) :
    c ∉ (escape s).toList := by
  rw [escape, String.toList_ofList]
  exact fun h => (Html.inert_escapeChars s.toList).marks c h hc

private theorem filter_brackets_escape (s : String) :
    (escape s).toList.filter (· ∈ ['<', '>']) = [] := by
  rw [List.filter_eq_nil_iff]
  intro c hc hb
  have hmarks : ['<', '>'] <+: ['<', '>', '"', '\''] := by decide
  exact notMem_escape (hmarks.subset (of_decide_eq_true hb)) s hc

private theorem linkFragment_toHtml (url text : String) :
    LinkFragment url text (toHtml ⟨text, some url⟩).toList := by
  have hfragment : (toHtml ⟨text, some url⟩).toList = "<a href=\"".toList ++ ((escape url).toList
      ++ ("\" target=\"_blank\"><nobr>".toList ++ ((escape text).toList ++ "</nobr></a>".toList))) := by
    simp only [toHtml, String.toList_append, List.append_assoc]
  refine ⟨⟨_, (escape text).toList ++ "</nobr></a>".toList, hfragment, ?_, ?_⟩, ?_, ?_⟩
  · exact span_delimiter (notMem_escape (by decide) url) _
  · exact span_delimiter (notMem_escape (by decide) text) _
  · rw [escape, String.toList_ofList]
    exact Html.inert_escapeChars text.toList
  · rw [hfragment]
    simp only [List.filter_append, filter_brackets_escape]
    rfl

private theorem reads_toHtml (d : ReferenceDisplay) : d.Reads d.toHtml.toList := by
  obtain ⟨text, url⟩ := d
  cases url with
  | none =>
    refine ⟨fun _ => ⟨rfl, ?_⟩, fun u hu => ?_⟩
    · rw [toHtml, escape, String.toList_ofList]
      exact Html.inert_escapeChars text.toList
    · cases hu
  | some url =>
    refine ⟨fun hnone => ?_, fun u hu => ?_⟩
    · cases hnone
    · obtain rfl := Option.some.inj hu
      exact linkFragment_toHtml url text

/-- A link begins with a bracket, which no text does. -/
private theorem LinkFragment.not_inert {url text : String} {cs : List Char}
    (h : LinkFragment url text cs) :
    ¬ Inert cs := by
  obtain ⟨afterOpening, _, rfl, _⟩ := h.parts
  exact fun hi => hi.marks '<' (List.mem_append_left _ List.mem_cons_self) (by decide)

private theorem LinkFragment.unique {url text url' text' : String} {cs : List Char}
    (h : LinkFragment url text cs) (h' : LinkFragment url' text' cs) : url = url' ∧ text = text' := by
  obtain ⟨rest, tail, rfl, hrest, htail⟩ := h.parts
  obtain ⟨rest', tail', hcs, hrest', htail'⟩ := h'.parts
  obtain rfl := List.append_cancel_left hcs
  obtain ⟨hurl, hafter⟩ := Prod.mk.inj (hrest.symm.trans hrest')
  obtain rfl := List.append_cancel_left hafter
  obtain ⟨htext, _⟩ := Prod.mk.inj (htail.symm.trans htail')
  exact ⟨Html.escape_injective (String.toList_injective hurl),
    Html.escape_injective (String.toList_injective htext)⟩

/-- What is displayed can be told from the fragment. -/
private theorem Reads.unique {d e : ReferenceDisplay} {cs : List Char} (hd : d.Reads cs)
    (he : e.Reads cs) :
    d = e := by
  obtain ⟨text, url⟩ := d
  obtain ⟨text', url'⟩ := e
  match url, url' with
  | none, none =>
    have htext := (hd.plain rfl).1.symm.trans (he.plain rfl).1
    obtain rfl := Html.escape_injective (String.toList_injective htext)
    rfl
  | none, some url' => exact absurd (hd.plain rfl).2 (he.link url' rfl).not_inert
  | some url, none => exact absurd (he.plain rfl).2 (hd.link url rfl).not_inert
  | some url, some url' =>
    obtain ⟨rfl, rfl⟩ := (hd.link url rfl).unique (he.link url' rfl)
    rfl

/-- Nothing breaks out of a fragment and nothing is lost in it. Without an address the fragment has no
markup; with one it is a link whose address and text can be read off it; and no two displays have one
fragment. -/
theorem toHtml_reads : (∀ d : ReferenceDisplay, d.Reads d.toHtml.toList) ∧
    Function.Injective toHtml := by
  refine ⟨reads_toHtml, fun d e h => ?_⟩
  have he := reads_toHtml e
  rw [← h] at he
  exact (reads_toHtml d).unique he

/-- A text and an address that imitate the tags around them. -/
example : toHtml ⟨"</nobr></a><b>", some "x\" onclick='y"⟩
    = "<a href=\"x&quot; onclick=&#39;y\" target=\"_blank\"><nobr>"
      ++ "&lt;/nobr&gt;&lt;/a&gt;&lt;b&gt;</nobr></a>" := by decide

end Compliance.ReferenceDisplay
