import PostMarkup.Markdown.BlockHtml
import PostMarkup.Proofs.Html.LosslessRewriting

namespace PostMarkup.Markdown

theorem mentions_iff {mark s : Text} : mentions mark s = true ↔ mark <:+: s := by
  unfold mentions
  constructor
  · intro hsome
    obtain ⟨⟨before, rest⟩, hcut⟩ := Option.isSome_iff_exists.1 hsome
    exact ⟨before, rest, (Text.append_of_upTo? hcut).symm⟩
  · intro hinfix
    induction s with
    | nil =>
      obtain rfl := List.infix_nil.1 hinfix
      rfl
    | cons c s ih =>
      cases hafter : Text.after? mark (c :: s) with
      | some rest => simp [Text.upTo?, hafter]
      | none =>
        rw [Text.upTo?_cons hafter, Option.isSome_map]
        obtain ⟨rest, hprefix⟩ | hinfix := List.infix_cons_iff.1 hinfix
        · rw [Text.after?_eq_some_iff.2 hprefix.symm] at hafter
          contradiction
        · exact ih hinfix

/-- Every table that is read in an HTML text has one class attribute, and it is the table class. -/
def ClassesTables (html : Text) : Prop :=
  ∀ attributes selfClosing,
    Html.Token.startTag "table".toList attributes selfClosing ∈ Html.tokenize html →
    attributes.filter (·.key = "class".toList) = [⟨"class".toList, tableClass⟩]

/-- The tags that are read back from the rewrite of tables. -/
theorem exists_of_startTag_mem {html name : Text} {attributes : List Attribute} {selfClosing : Bool}
    (hmem : Html.Token.startTag name attributes selfClosing ∈
      Html.tokenize (Html.withTableClasses html)) :
    ∃ token ∈ Html.tokenize html,
      token.bare.withTableClass.normalise = .startTag name attributes selfClosing := by
  have hkept : Html.Token.startTag name attributes selfClosing ∈
      (Html.tokenize (Html.withTableClasses html)).filter Html.tableClasses.keeps :=
    List.mem_filter.2 ⟨hmem, rfl⟩
  rw [← Html.map_tag_spansAt, Html.withTableClasses,
    Html.rereadable_tableClasses.snd_spansAt_tokenize, Html.Style.spans, List.map_map,
    List.map_map] at hkept
  obtain ⟨entry, hentry, heq⟩ := List.mem_map.1 hkept
  refine ⟨entry.2.mark, (Html.Style.mark_mem_of_mem_source hentry).1, ?_⟩
  rw [← Html.adjusted_tableClasses, ← Html.tableClasses.bare_normalise_adjusted]
  exact heq

theorem classesTables_withTableClasses (html : Text) :
    ClassesTables (Html.withTableClasses html) := by
  intro attributes selfClosing hmem
  obtain ⟨token, htoken, heq⟩ := exists_of_startTag_mem hmem
  have hformed := (Html.orderly_tokenize html).wellFormed token htoken
  cases token with
  | startTag name source selfClosing =>
    simp only [Html.Token.bare, Html.Token.withTableClass, Html.Token.normalise,
      Html.Token.startTag.injEq] at heq
    obtain ⟨rfl, rfl, -⟩ := heq
    have hclass : (Attribute.set "class".toList tableClass source).filter
        (·.key = "class".toList) = [⟨"class".toList, tableClass⟩] :=
      Attribute.filter_key_set hformed.distinct
    have hvalue : normaliseLineEnds tableClass = tableClass := by decide
    rw [if_pos rfl, List.filter_map]
    simp only [Function.comp_def, hclass, List.map_cons, List.map_nil, hvalue]
  | _ => contradiction

theorem classesTables_withTableClass_iff (html : Text) :
    ClassesTables (withTableClass html) ↔ "<table".toList <:+: html ∨ ClassesTables html := by
  unfold withTableClass
  split
  · next hmentions =>
    exact iff_of_true (classesTables_withTableClasses html) (.inl (mentions_iff.1 hmentions))
  · next hmentions =>
    have hnot : ¬ "<table".toList <:+: html := fun hinfix => hmentions (mentions_iff.2 hinfix)
    exact (or_iff_right hnot).symm

/-- Every table of a post has the table class exactly if the HTML of the post spells a table in lower
    case somewhere, or all its tables have the class already. -/
theorem classesTables_render_iff (input : Text) :
    ClassesTables (render input) ↔
      "<table".toList <:+: (Document.ofText input).toHtml ∨
        ClassesTables (Document.ofText input).toHtml :=
  classesTables_withTableClass_iff _

/-- A table in upper case is left as it is. -/
theorem not_classesTables_upperCase : ¬ ClassesTables (render "<TABLE></TABLE>\n".toList) := by
  intro htables
  have hmem : Html.Token.startTag "table".toList [] false ∈
      Html.tokenize (render "<TABLE></TABLE>\n".toList) := by
    decide +kernel
  exact absurd (htables [] false hmem) (by decide)

end PostMarkup.Markdown
