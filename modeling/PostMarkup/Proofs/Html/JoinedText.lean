import PostMarkup.Html.PlainText
import PostMarkup.Proofs.Text.Visible

namespace PostMarkup.Html

open Text (IsTrimmed)

theorem trimmedChunk_of_not_isVisible {s : Text} (hs : s.isVisible = false) : trimmedChunk s = [] := by
  rw [trimmedChunk, Text.trim_eq_nil_iff.2 hs]

theorem trimmedChunk_of_isVisible {s : Text} (hs : s.isVisible = true) :
    trimmedChunk s = [s.trim] := by
  obtain ⟨c, rest, htrim, -⟩ := (Text.isTrimmed_trim hs).exists_cons
  rw [trimmedChunk, htrim]

theorem trimmedChunk_eq_nil_iff {s : Text} : trimmedChunk s = [] ↔ s.isVisible = false := by
  constructor
  · intro hnone
    by_contra hvisible
    rw [trimmedChunk_of_isVisible (by simpa using hvisible)] at hnone
    contradiction
  · exact trimmedChunk_of_not_isVisible

/-- The trimmed parts of some text, joined by single spaces. -/
def joined (parts : List Text) : Text := [' '].intercalate (parts.flatMap trimmedChunk)

theorem flatMap_trimmedChunk_eq_nil_iff {parts : List Text} :
    parts.flatMap trimmedChunk = [] ↔ Text.isVisible parts.flatten = false := by
  induction parts with
  | nil => simp [Text.isVisible]
  | cons part parts ih =>
    rw [List.flatMap_cons, List.append_eq_nil_iff, trimmedChunk_eq_nil_iff, ih, List.flatten_cons,
      Text.isVisible_append, Bool.or_eq_false_iff]

theorem isTrimmed_of_mem_trimmedChunk {s chunk : Text} (hchunk : chunk ∈ trimmedChunk s) :
    IsTrimmed chunk := by
  cases hs : s.isVisible with
  | false => simp [trimmedChunk_of_not_isVisible hs] at hchunk
  | true =>
    rw [trimmedChunk_of_isVisible hs, List.mem_singleton] at hchunk
    exact hchunk ▸ Text.isTrimmed_trim hs

theorem intercalate_append {chunks more : List Text} (hchunks : chunks ≠ []) (hmore : more ≠ []) :
    [' '].intercalate (chunks ++ more) =
      [' '].intercalate chunks ++ ' ' :: [' '].intercalate more := by
  induction chunks with
  | nil => contradiction
  | cons chunk chunks ih =>
    cases chunks with
    | nil =>
      cases more with
      | nil => contradiction
      | cons next more => simp [List.intercalate_cons_cons]
    | cons next chunks =>
      have hrest := ih (by simp)
      simp only [List.cons_append] at hrest ⊢
      rw [List.intercalate_cons_cons, List.intercalate_cons_cons, hrest]
      simp

theorem isTrimmed_intercalate {chunks : List Text} (hchunks : ∀ chunk ∈ chunks, IsTrimmed chunk)
    (hsome : chunks ≠ []) : IsTrimmed ([' '].intercalate chunks) := by
  induction chunks with
  | nil => contradiction
  | cons chunk chunks ih =>
    obtain ⟨hchunk, hchunks⟩ := List.forall_mem_cons.1 hchunks
    cases chunks with
    | nil => simpa using hchunk
    | cons next chunks =>
      rw [List.intercalate_cons_cons]
      exact hchunk.append_between [' '] (ih hchunks (by simp))

theorem isTrimmed_joined {parts : List Text} (hparts : Text.isVisible parts.flatten = true) :
    IsTrimmed (joined parts) := by
  refine isTrimmed_intercalate (fun chunk hchunk => ?_) fun hnone => ?_
  · obtain ⟨part, -, hchunk⟩ := List.mem_flatMap.1 hchunk
    exact isTrimmed_of_mem_trimmedChunk hchunk
  · rw [flatMap_trimmedChunk_eq_nil_iff.1 hnone] at hparts
    contradiction

/-- Between a visible part and the visible text after it stands one space and no other blank. -/
def Spaced : List Text → Prop
  | [] => True
  | part :: parts =>
    (part.isVisible = true → Text.isVisible parts.flatten = true →
      part.rtakeWhile isBlank ++ parts.flatten.takeWhile isBlank = [' ']) ∧ Spaced parts

instance Spaced.decidable : (parts : List Text) → Decidable (Spaced parts)
  | [] => inferInstanceAs (Decidable True)
  | part :: parts =>
    have := Spaced.decidable parts
    inferInstanceAs (Decidable ((part.isVisible = true → Text.isVisible parts.flatten = true →
      part.rtakeWhile isBlank ++ parts.flatten.takeWhile isBlank = [' ']) ∧ Spaced parts))

theorem spaced_of_not_isVisible {parts : List Text} (hparts : Text.isVisible parts.flatten = false) :
    Spaced parts := by
  induction parts with
  | nil => exact trivial
  | cons part parts ih =>
    rw [List.flatten_cons, Text.isVisible_append, Bool.or_eq_false_iff] at hparts
    exact ⟨fun hpart => by simp [hparts.1] at hpart, ih hparts.2⟩

/-- Parts come out as the text that they make up if and only if they are spaced. -/
theorem joined_eq_trim_iff (parts : List Text) :
    joined parts = Text.trim parts.flatten ↔ Spaced parts := by
  induction parts with
  | nil => exact iff_of_true rfl trivial
  | cons part parts ih =>
    rw [joined, List.flatMap_cons, List.flatten_cons, Spaced]
    cases hpart : part.isVisible with
    | false =>
      rw [trimmedChunk_of_not_isVisible hpart, List.nil_append, ← joined,
        Text.trim_append_of_blank (Text.isBlank_of_isVisible hpart), ih]
      simp
    | true =>
      rw [trimmedChunk_of_isVisible hpart]
      cases hparts : Text.isVisible parts.flatten with
      | false =>
        rw [flatMap_trimmedChunk_eq_nil_iff.2 hparts,
          Text.trim_append_blank part (Text.isBlank_of_isVisible hparts)]
        simp [spaced_of_not_isVisible hparts]
      | true =>
        have hsome : parts.flatMap trimmedChunk ≠ [] := fun hnone => by
          simp [flatMap_trimmedChunk_eq_nil_iff.1 hnone] at hparts
        have hspace : ∀ c ∈ [' '], isBlank c = true := List.forall_mem_singleton.2 (by decide)
        have hgap : ∀ c ∈ part.rtakeWhile isBlank ++ parts.flatten.takeWhile isBlank,
            isBlank c = true :=
          List.forall_mem_append.2 ⟨fun c hc => List.mem_rtakeWhile_imp hc,
            fun c hc => List.all_eq_true.1 List.all_takeWhile c hc⟩
        -- Behind the first part both sides are blanks and then trimmed text.
        rw [intercalate_append (by simp) hsome, List.intercalate_singleton, ← joined,
          ← List.singleton_append, Text.trim_append hpart hparts, List.append_cancel_left_eq,
          Text.blank_append_inj hspace hgap (isTrimmed_joined hparts) (Text.isTrimmed_trim hparts), ih]
        simp only [forall_const, eq_comm]

theorem visibles_intercalate (chunks : List Text) :
    Text.visibles ([' '].intercalate chunks) = chunks.flatMap Text.visibles := by
  induction chunks with
  | nil => rfl
  | cons chunk chunks ih =>
    cases chunks with
    | nil => simp
    | cons next chunks =>
      have hspace : Text.visibles [' '] = [] := Text.visibles_eq_nil_iff.2 (by decide)
      rw [List.intercalate_cons_cons, Text.visibles_append, Text.visibles_append, hspace, ih,
        List.append_nil, ← List.flatMap_cons]

theorem flatMap_visibles_trimmedChunk (s : Text) :
    (trimmedChunk s).flatMap Text.visibles = Text.visibles s := by
  cases hs : s.isVisible with
  | false => rw [trimmedChunk_of_not_isVisible hs, Text.visibles_eq_nil_iff.2 hs, List.flatMap_nil]
  | true => rw [trimmedChunk_of_isVisible hs, List.flatMap_singleton, Text.visibles_trim]

theorem visibles_joined (parts : List Text) :
    Text.visibles (joined parts) = Text.visibles (Text.trim parts.flatten) := by
  rw [joined, visibles_intercalate, Text.visibles_trim]
  induction parts with
  | nil => rfl
  | cons part parts ih =>
    rw [List.flatMap_cons, List.flatMap_append, flatMap_visibles_trimmedChunk, ih, List.flatten_cons,
      Text.visibles_append]

/-- One chunk of each text comes to the same as one chunk of each of its parts if and only if the parts
    are spaced in every text. -/
theorem intercalate_flatMap_eq_iff (texts : List (List Text)) :
    [' '].intercalate (texts.flatMap fun parts => parts.flatMap trimmedChunk) =
        [' '].intercalate (texts.flatMap fun parts => trimmedChunk parts.flatten) ↔
      ∀ parts ∈ texts, Spaced parts := by
  induction texts with
  | nil => simp
  | cons parts texts ih =>
    rw [List.flatMap_cons, List.flatMap_cons, List.forall_mem_cons]
    cases hparts : Text.isVisible parts.flatten with
    | false =>
      rw [flatMap_trimmedChunk_eq_nil_iff.2 hparts, trimmedChunk_of_not_isVisible hparts,
        List.nil_append, List.nil_append, ih]
      simp [spaced_of_not_isVisible hparts]
    | true =>
      have hsome : parts.flatMap trimmedChunk ≠ [] := fun hnone => by
        simp [flatMap_trimmedChunk_eq_nil_iff.1 hnone] at hparts
      rw [trimmedChunk_of_isVisible hparts]
      have hrest : (texts.flatMap fun parts => parts.flatMap trimmedChunk) = [] ↔
          (texts.flatMap fun parts => trimmedChunk parts.flatten) = [] := by
        rw [List.flatMap_eq_nil_iff, List.flatMap_eq_nil_iff]
        exact forall₂_congr fun parts _ =>
          flatMap_trimmedChunk_eq_nil_iff.trans trimmedChunk_eq_nil_iff.symm
      by_cases hnone : (texts.flatMap fun parts => parts.flatMap trimmedChunk) = []
      · have hnone' := hrest.1 hnone
        rw [hnone, hnone'] at ih ⊢
        rw [List.append_nil, List.append_nil, List.intercalate_singleton, ← joined, joined_eq_trim_iff]
        exact (and_iff_left (ih.1 rfl)).symm
      · have hnone' := fun h => hnone (hrest.2 h)
        rw [intercalate_append hsome hnone, intercalate_append (by simp) hnone',
          List.intercalate_singleton, ← joined,
          (isTrimmed_joined hparts).append_inj (Text.isTrimmed_trim hparts) (visibles_joined parts),
          joined_eq_trim_iff, List.cons_inj_right, ih]

end PostMarkup.Html
