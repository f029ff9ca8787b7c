import PostMarkup.Format
import PostMarkup.Proofs.Dialect.BlankOutput
import PostMarkup.Proofs.Dialect.Concatenation
import PostMarkup.Proofs.Html.WrittenText

namespace PostMarkup.Format

open Dialect (Event Reading read readFrom)

/-- A broken document is served escaped if its events up to the fault are blank text and sections
    only, and as far as it was written otherwise. -/
theorem html_render_dialect {content : Text} (hfailure : (Dialect.convert content).failure ≠ none) :
    (render .dialect content).html =
      if (read content.dropByteOrderMark).events.any
        fun event => event.isVisible || event.isDirective
      then (Dialect.convert content).html else escapeText content := by
  obtain ⟨failure, hfailure⟩ := Option.ne_none_iff_exists'.1 hfailure
  rw [← Dialect.isVisible_convert]
  simp only [render, convert, hfailure]
  cases hvisible : (Dialect.convert content).html.isVisible with
  | false => simp [Text.trim_eq_nil_iff.2 hvisible]
  | true =>
    have htrim : (Dialect.convert content).html.trim ≠ [] := by
      rw [ne_eq, Text.trim_eq_nil_iff, hvisible]
      simp
    split
    · contradiction
    · rfl

theorem failure_render (format : Format) (content : Text) :
    (render format content).failure = (format.convert content).failure := by
  simp only [render]
  split <;> rfl

theorem spells_legacyProlog : Dialect.Spells legacyProlog (.directive legacyProlog) := by
  have hhead : ("xml version=\"1.0\"".toList).head? ≠ some '>' := by decide
  have hcut (s : Text) := Text.upTo?_of_not_infix (by decide : '>' ∉ "?".toList)
    (by decide : ¬ "?>".toList <:+: "xml version=\"1.0\"".toList) s
  exact Dialect.spells_instruction hhead hcut

/-- The first event of a stored document is its prolog. -/
theorem exists_of_detect {content : Text} (hlegacy : detect content false = .dialect) :
    content.dropByteOrderMark = content ∧
      ∃ later, (read content).events = .directive legacyProlog :: later := by
  have hprolog : (Text.after? legacyProlog content).isSome = true := by
    by_contra hprolog
    simp [detect, hprolog] at hlegacy
  obtain ⟨rest, hrest⟩ := Option.isSome_iff_exists.1 hprolog
  obtain rfl := Text.after?_eq_some_iff.1 hrest
  have hopens : Dialect.openAfter [] (.directive legacyProlog) = .ok [] := rfl
  have hread := Dialect.readFrom_of_spells spells_legacyProlog hopens rest
  exact ⟨rfl, _, congrArg Reading.events hread⟩

/-- A broken document that begins with the prolog is always served as far as it was written, and
    what was written begins with the prolog. So the escaped source is not served even where nothing
    but directives, sections and blank text stands before the fault. -/
theorem render_broken_legacy {content : Text} (hlegacy : detect content false = .dialect)
    (hfailure : (render .dialect content).failure ≠ none) :
    render .dialect content = Dialect.convert content ∧
      legacyProlog <+: (Dialect.convert content).html ∧
      ((render .dialect content).html =
          (if (read content).events.any Event.isVisible then (Dialect.convert content).html
            else escapeText content) ↔
        ∃ event ∈ (read content).events, event.isVisible = true) := by
  obtain ⟨hmark, later, hevents⟩ := exists_of_detect hlegacy
  have hkept : (render .dialect content).html = (Dialect.convert content).html := by
    rw [html_render_dialect (by simpa [failure_render, convert] using hfailure), hmark, hevents]
    simp [Event.isDirective]
  have hprolog : legacyProlog <+: (Dialect.convert content).html := by
    have hmarkup : (Event.directive legacyProlog).isMarkup = true := rfl
    have hsplit := Dialect.split_cons_of_isMarkup hmarkup {} later
    simp only [Dialect.convert, hmark, hevents, Dialect.pieces, hsplit]
    simp [Dialect.markup, Dialect.textPieces, Dialect.Piece.write]
  refine ⟨?_, hprolog, ?_⟩
  · have hsame : (render .dialect content).failure = (Dialect.convert content).failure :=
      failure_render .dialect content
    calc render .dialect content
      _ = ⟨(render .dialect content).html, (render .dialect content).failure⟩ := rfl
      _ = Dialect.convert content := by rw [hkept, hsame]
  · rw [hkept, ← List.any_eq_true]
    cases hvisible : (read content).events.any Event.isVisible with
    | true => simp
    | false =>
      have hangle : '<' ∈ (Dialect.convert content).html := hprolog.subset (by decide)
      have hne : (Dialect.convert content).html ≠ escapeText content := by
        intro heq
        exact Html.angle_not_mem_escapeText content (heq ▸ hangle)
      simpa using hne

theorem render_broken_legacy_heading :
    let content : Text := "<?xml version=\"1.0\"?>\n<div1><head>a - b</h>".toList
    detect content false = .dialect ∧ (render .dialect content).failure ≠ none ∧
      render .dialect content = Dialect.convert content ∧
      (Dialect.convert content).html =
        "<?xml version=\"1.0\"?>\n<h2>a&nbsp;&mdash; b".toList := by
  intro content
  have hlegacy : detect content false = .dialect := by decide
  have hfailure : (render .dialect content).failure ≠ none := by decide +kernel
  obtain ⟨hrender, -, -⟩ := render_broken_legacy hlegacy hfailure
  exact ⟨hlegacy, hfailure, hrender, by decide +kernel⟩

/-- Nothing but the prolog was written, and it is served in place of the escaped source. -/
theorem render_broken_legacy_shows_nothing :
    let content : Text := "<?xml version=\"1.0\"?></p>".toList
    detect content false = .dialect ∧
      (render .dialect content).failure = some (.malformed 21 (.strayEndTag "p".toList)) ∧
      (∀ event ∈ (read content).events, event.isVisible = false) ∧
      (render .dialect content).html = legacyProlog ∧
      (render .dialect content).html ≠ escapeText content := by
  decide +kernel

end PostMarkup.Format
