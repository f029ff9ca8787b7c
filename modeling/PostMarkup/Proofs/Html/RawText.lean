import PostMarkup.Proofs.Html.TokenKinds

namespace PostMarkup.Html

/-- Whether an end tag here is only text. -/
def Hiding.hides : Hiding → Bool
  | nested _ => true
  | _ => false

/-- Only in a script does anything hide the text after a character. -/
def ContentModel.next (model : ContentModel) (cover : Hiding) (c : Char) (s : Text) : Hiding :=
  if model = .script then cover.next c s else .bare

/-- Content in which nothing is decoded, of either kind. -/
def verbatimText (model : ContentModel) (name : Text) : Hiding → Text → Content
  | _, [] => ⟨[], none⟩
  | cover, c :: s =>
    match if cover.hides then none else afterEndTagName? name (c :: s) with
    | some tail => ⟨[], some tail⟩
    | none => (verbatimText model name (model.next cover c s) s).prepend (contentTokens c)

theorem scriptText_eq_verbatimText (name : Text) (cover : Hiding) (s : Text) :
    scriptText name cover s = verbatimText .script name cover s := by
  induction s generalizing cover with
  | nil => rfl
  | cons c s ih =>
    cases cover with
    | nested => simp [scriptText, verbatimText, Hiding.hides, ContentModel.next, ih]
    | _ =>
      simp only [scriptText, verbatimText, Hiding.hides, ContentModel.next, ih]
      cases afterEndTagName? name (c :: s) <;> rfl

theorem rawText_eq_verbatimText (name s : Text) :
    rawText name s = verbatimText .rawText name .bare s := by
  induction s with
  | nil => rfl
  | cons c s ih =>
    simp only [rawText, verbatimText, Hiding.hides, ContentModel.next, ih]
    cases afterEndTagName? name (c :: s) <;> rfl

theorem readContent_eq_verbatimText {model : ContentModel} (hmodel : model ≠ .escapableText)
    (name s : Text) : readContent model name s = verbatimText model name .bare s := by
  cases model with
  | script => exact scriptText_eq_verbatimText name .bare s
  | rawText => exact rawText_eq_verbatimText name s
  | escapableText => contradiction

/-- What hides the place after some content. There is no such place if the content ends before. -/
def coverAfter? (model : ContentModel) (name : Text) : Hiding → Text → Option Hiding
  | cover, [] => some cover
  | cover, c :: s =>
    if cover.hides = false ∧ (afterEndTagName? name (c :: s)).isSome then none
    else coverAfter? model name (model.next cover c s) s

/-- Text that can stand in an element in which nothing is decoded. Where the element is to be closed,
    nothing may hide the end tag after it. -/
def Encloses (model : ContentModel) (name s : Text) (closed : Bool) : Prop :=
  ∃ cover, coverAfter? model name .bare s = some cover ∧ (closed = true → cover.hides = false)

theorem isAlpha_script : ∀ c ∈ "script".toList, c.isAlpha := by
  simp

/-- The elements with a content model of their own have names made of letters. -/
theorem isAlpha_of_contentModel? {name : Text} (hmodel : (contentModel? name).isSome) :
    ∀ c ∈ name, c.isAlpha := by
  have hspelled {spelled : String} (heq : String.ofList name = spelled)
      (hletters : ∀ c ∈ spelled.toList, c.isAlpha) : ∀ c ∈ name, c.isAlpha := by
    subst heq
    simpa using hletters
  unfold contentModel? at hmodel
  split at hmodel
  case h_9 => contradiction
  all_goals exact hspelled ‹_› (by simp)

section

variable {name : Text} (hname : ∀ c ∈ name, c.isAlpha)

section

variable {stop : Text} (hstop : ∀ c ∈ stop.head?, c = '<')

include hstop

theorem any_head?_append (p : Char → Bool) (hp : p '<' = false) (s : Text) :
    (s ++ stop).head?.any p = s.head?.any p := by
  cases s with
  | cons c s => rfl
  | nil =>
    cases stop with
    | nil => rfl
    | cons c stop =>
      obtain rfl := hstop c rfl
      simpa using hp

theorem afterAnyCase?_append_angle {lead : Text} (hlead : ∀ c ∈ lead, c.isAlpha) (s : Text) :
    Text.afterAnyCase? lead (s ++ stop) = (Text.afterAnyCase? lead s).map (· ++ stop) := by
  refine Text.afterAnyCase?_append_of_head? hlead (fun c hc => ?_) s
  obtain rfl := hstop c hc
  decide

theorem after?_append_angle {lead : Text} (hlead : '<' ∉ lead) (s : Text) :
    Text.after? lead (s ++ stop) = (Text.after? lead s).map (· ++ stop) := by
  refine Text.after?_append_of_head? (p := (· ≠ '<')) (fun c hc => ?_) (fun c hc => ?_) s
  · simp [hstop c hc]
  · simpa using fun heq : c = '<' => hlead (heq ▸ hc)

include hname in
/-- Whether an end tag stands at a character does not depend on the markup after the text. -/
theorem afterEndTagName?_append (c : Char) (s : Text) :
    afterEndTagName? name (c :: (s ++ stop)) =
      (afterEndTagName? name (c :: s)).map (· ++ stop) := by
  by_cases hangle : c = '<'
  · subst hangle
    cases s with
    | nil =>
      cases stop with
      | nil => rfl
      | cons d stop =>
        obtain rfl := hstop d rfl
        rfl
    | cons d s =>
      by_cases hslash : d = '/'
      · subst hslash
        simp only [List.cons_append, afterEndTagName?, afterAnyCase?_append_angle hstop hname]
        cases Text.afterAnyCase? name s with
        | none => rfl
        | some rest =>
          simp only [Option.map_some, any_head?_append hstop endsName rfl]
          split <;> rfl
      · simp [afterEndTagName?, hslash]
  · simp [afterEndTagName?, hangle]

theorem namesScript_append (s : Text) : Hiding.namesScript (s ++ stop) = Hiding.namesScript s := by
  unfold Hiding.namesScript
  rw [afterAnyCase?_append_angle hstop isAlpha_script]
  cases Text.afterAnyCase? "script".toList s with
  | none => rfl
  | some rest => exact any_head?_append hstop endsName rfl rest

theorem Hiding.next_append (cover : Hiding) (c : Char) (s : Text) :
    cover.next c (s ++ stop) = cover.next c s := by
  have hdashes : Text.after? "!--".toList (s ++ stop) = _ :=
    after?_append_angle hstop (by decide) s
  have hslash : Text.after? ['/'] (s ++ stop) = _ := after?_append_angle hstop (by decide) s
  have hany : (Text.after? ['/'] (s ++ stop)).any namesScript =
      (Text.after? ['/'] s).any namesScript := by
    rw [hslash]
    cases Text.after? ['/'] s with
    | none => rfl
    | some rest => exact namesScript_append hstop rest
  unfold next
  rw [hdashes, Option.isSome_map, namesScript_append hstop, hany]

include hname in
/-- Content is passed over up to its end, whatever markup follows there. -/
theorem verbatimText_append {model : ContentModel} {cover later : Hiding} {s : Text}
    (hcover : coverAfter? model name cover s = some later) :
    verbatimText model name cover (s ++ stop) =
      (verbatimText model name later stop).prepend (s.flatMap contentTokens) := by
  induction s generalizing cover with
  | nil =>
    obtain rfl := Option.some.inj hcover
    rfl
  | cons c s ih =>
    have hnext : model.next cover c (s ++ stop) = model.next cover c s := by
      unfold ContentModel.next
      rw [Hiding.next_append hstop]
    have hopen : (if cover.hides then none else afterEndTagName? name (c :: (s ++ stop))) = none := by
      rw [coverAfter?] at hcover
      split at hcover
      · contradiction
      · next hend =>
        rw [afterEndTagName?_append hname hstop]
        cases hhides : cover.hides <;> simp_all
    have hcover : coverAfter? model name (model.next cover c s) s = some later := by
      rw [coverAfter?] at hcover
      split at hcover
      · contradiction
      · exact hcover
    rw [List.cons_append, verbatimText, hopen, hnext, ih hcover]
    simp [Content.prepend]

end

theorem visible_toLower_eq {l c : Char} (hl : l.isAlpha) :
    l = (visible c).toLower ↔ l = c.toLower := by
  unfold visible
  split
  · next hc =>
    subst hc
    constructor
    all_goals
      rintro rfl
      contradiction
  · rfl

theorem afterAnyCase?_map_visible {lead : Text} (hlead : ∀ c ∈ lead, c.isAlpha) (s : Text) :
    Text.afterAnyCase? lead (s.map visible) =
      (Text.afterAnyCase? lead s).map (·.map visible) := by
  induction lead generalizing s with
  | nil => rfl
  | cons l lead ih =>
    obtain ⟨hl, hlead⟩ := List.forall_mem_cons.1 hlead
    cases s with
    | nil => rfl
    | cons c s =>
      simp only [List.map_cons, Text.afterAnyCase?, visible_toLower_eq hl]
      split
      · exact ih hlead s
      · rfl

theorem after?_map_visible {lead : Text}
    (hlead : ∀ c ∈ lead, c ≠ '\x00' ∧ c ≠ Reference.replacementCharacter) (s : Text) :
    Text.after? lead (s.map visible) = (Text.after? lead s).map (·.map visible) := by
  induction lead generalizing s with
  | nil => rfl
  | cons l lead ih =>
    obtain ⟨hl, hlead⟩ := List.forall_mem_cons.1 hlead
    cases s with
    | nil => rfl
    | cons c s =>
      simp only [List.map_cons, Text.after?, eq_comm (a := l), visible_eq_iff hl.1 hl.2]
      split
      · exact ih hlead s
      · rfl

theorem any_head?_map_visible (s : Text) :
    (s.map visible).head?.any endsName = s.head?.any endsName := by
  cases s with
  | nil => rfl
  | cons c s =>
    rw [List.map_cons, List.head?_cons, List.head?_cons, Option.any_some, Option.any_some]
    unfold visible
    split
    · next hc =>
      subst hc
      decide
    · rfl

include hname in
theorem afterEndTagName?_map_visible (s : Text) :
    afterEndTagName? name (s.map visible) = (afterEndTagName? name s).map (·.map visible) := by
  obtain _ | ⟨c, _ | ⟨d, s⟩⟩ := s
  · rfl
  · simp [afterEndTagName?]
  · by_cases hmark : c = '<' ∧ d = '/'
    · obtain ⟨rfl, rfl⟩ := hmark
      have hafter := afterAnyCase?_map_visible hname s
      change (match Text.afterAnyCase? name (s.map visible) with
        | some rest => if rest.head?.any endsName then some rest else none
        | none => none) = _
      rw [hafter, afterEndTagName?]
      cases Text.afterAnyCase? name s with
      | none => rfl
      | some rest =>
        simp only [Option.map_some, any_head?_map_visible]
        split <;> rfl
    · have hother : ¬ (visible c = '<' ∧ visible d = '/') := by
        have hc : visible c = '<' ↔ c = '<' := visible_eq_iff (by decide) (by decide)
        have hd : visible d = '/' ↔ d = '/' := visible_eq_iff (by decide) (by decide)
        rwa [hc, hd]
      unfold afterEndTagName?
      simp only [List.map_cons]
      split
      · next heq => simp_all
      · split
        · next heq => simp_all
        · rfl

theorem namesScript_map_visible (s : Text) :
    Hiding.namesScript (s.map visible) = Hiding.namesScript s := by
  unfold Hiding.namesScript
  rw [afterAnyCase?_map_visible isAlpha_script]
  cases Text.afterAnyCase? "script".toList s with
  | none => rfl
  | some rest => exact any_head?_map_visible rest

theorem Hiding.next_map_visible (cover : Hiding) (c : Char) (s : Text) :
    cover.next (visible c) (s.map visible) = cover.next c s := by
  have hdashes : Text.after? "!--".toList (s.map visible) = _ :=
    after?_map_visible (by simp [Reference.replacementCharacter]) s
  have hslash : Text.after? ['/'] (s.map visible) = _ :=
    after?_map_visible (by simp [Reference.replacementCharacter]) s
  have hany : (Text.after? ['/'] (s.map visible)).any namesScript =
      (Text.after? ['/'] s).any namesScript := by
    rw [hslash]
    cases Text.after? ['/'] s with
    | none => rfl
    | some rest => exact namesScript_map_visible rest
  have hkept : cover.next (visible c) s = cover.next c s := by
    unfold visible
    split
    · next hc =>
      subst hc
      cases cover <;> rfl
    · rfl
  rw [← hkept]
  unfold next
  rw [hdashes, Option.isSome_map, namesScript_map_visible, hany]

include hname in
theorem coverAfter?_map_visible (model : ContentModel) (cover : Hiding) (s : Text) :
    coverAfter? model name cover (s.map visible) = coverAfter? model name cover s := by
  induction s generalizing cover with
  | nil => rfl
  | cons c s ih =>
    have hend := afterEndTagName?_map_visible hname (c :: s)
    have hnext : model.next cover (visible c) (s.map visible) = model.next cover c s := by
      unfold ContentModel.next
      rw [Hiding.next_map_visible]
    rw [List.map_cons] at hend
    rw [List.map_cons, coverAfter?, coverAfter?, hend, Option.isSome_map, hnext, ih]

include hname in
/-- Content is a part of the text, and goes on to the end tag of its element or to the end. -/
theorem exists_verbatimText (model : ContentModel) (cover : Hiding) (s : Text) :
    ∃ body rest later, s = body ++ rest ∧ (∀ c ∈ rest.head?, c = '<') ∧
      coverAfter? model name cover body = some later ∧
      (verbatimText model name cover s).tokens = body.flatMap contentTokens ∧
      ∀ tail ∈ (verbatimText model name cover s).tail?,
        later.hides = false ∧ afterEndTagName? name rest = some tail := by
  induction s generalizing cover with
  | nil => exact ⟨[], [], cover, rfl, by simp, rfl, rfl, by simp [verbatimText]⟩
  | cons c s ih =>
    cases hend : if cover.hides then none else afterEndTagName? name (c :: s) with
    | some tail =>
      have hcontent : verbatimText model name cover (c :: s) = ⟨[], some tail⟩ := by
        simp only [verbatimText, hend]
      split at hend
      · contradiction
      · next hhides =>
        have hangle : c = '<' := by
          by_contra hangle
          simp [afterEndTagName?, hangle] at hend
        refine ⟨[], c :: s, cover, rfl, by simpa using hangle, rfl, by rw [hcontent]; rfl, ?_⟩
        rw [hcontent]
        rintro _ ⟨⟩
        exact ⟨by simpa using hhides, hend⟩
    | none =>
      obtain ⟨body, rest, later, rfl, hrest, hcover, htokens, htail⟩ := ih (model.next cover c s)
      have hcontent : verbatimText model name cover (c :: (body ++ rest)) =
          (verbatimText model name (model.next cover c (body ++ rest)) (body ++ rest)).prepend
            (contentTokens c) := by
        simp only [verbatimText, hend]
      have hnext : model.next cover c (body ++ rest) = model.next cover c body := by
        unfold ContentModel.next
        rw [Hiding.next_append hrest]
      have hopen : ¬ (cover.hides = false ∧ (afterEndTagName? name (c :: body)).isSome) := by
        rintro ⟨hhides, hsome⟩
        rw [hhides, afterEndTagName?_append hname hrest] at hend
        simp_all
      refine ⟨c :: body, rest, later, rfl, hrest, ?_, ?_, ?_⟩
      · rw [coverAfter?, if_neg hopen, ← hnext, hcover]
      · rw [hcontent]
        simp [Content.prepend, htokens]
      · rw [hcontent]
        exact htail

end

/-- Names in folded form agree with themselves where case does not count. -/
theorem afterAnyCase?_append {name : Text} (hname : foldName name = name) (s : Text) :
    Text.afterAnyCase? name (name ++ s) = some s := by
  induction name with
  | nil => rfl
  | cons c name ih =>
    obtain ⟨hc, hrest⟩ := List.cons.inj hname
    have hlower : c = c.toLower := by
      change visible c.toLower = c at hc
      unfold visible at hc
      split at hc
      · next hnull =>
        obtain rfl := (Text.toLower_eq_iff rfl).1 hnull
        exact absurd hc (by decide)
      · exact hc.symm
    simp [Text.afterAnyCase?, ← hlower, ih hrest]

theorem write_endTag_append (name s : Text) :
    (Piece.endTag name).write ++ s = '<' :: '/' :: (name ++ '>' :: s) := by
  simp [Piece.write]

theorem afterEndTagName?_endTag {name : Text} (hname : IsTagName name) (s : Text) :
    afterEndTagName? name ('<' :: '/' :: (name ++ '>' :: s)) = some ('>' :: s) := by
  simp only [afterEndTagName?, afterAnyCase?_append hname.folded]
  rfl

/-- The end tag of an element is found where nothing hides it. -/
theorem verbatimText_endTag {name : Text} (hname : IsTagName name) (model : ContentModel)
    {cover : Hiding} (hcover : cover.hides = false) (s : Text) :
    verbatimText model name cover ((Piece.endTag name).write ++ s) = ⟨[], some ('>' :: s)⟩ := by
  simp [write_endTag_append, verbatimText, hcover, afterEndTagName?_endTag hname]

theorem readContent_endTag {name : Text} (hname : IsTagName name) (model : ContentModel)
    (s : Text) :
    readContent model name ((Piece.endTag name).write ++ s) = ⟨[], some ('>' :: s)⟩ := by
  by_cases hmodel : model = .escapableText
  · subst hmodel
    rw [write_endTag_append, readContent, escapableText, afterEndTagName?_endTag hname]
    simp
  · rw [readContent_eq_verbatimText hmodel, verbatimText_endTag hname model rfl]

theorem readContent_nil (model : ContentModel) (name : Text) :
    readContent model name [] = ⟨[], none⟩ := by
  cases model with
  | script => rfl
  | rawText => rfl
  | escapableText => rw [readContent, escapableText]

section

variable {model : ContentModel} (hmodel : model ≠ .escapableText) {name : Text}
  (hcontent : contentModel? name = some model)

include hmodel hcontent

/-- Content that is written as it is comes back, with nothing or its end tag after it. -/
theorem readContent_of_encloses {s stop : Text} {closed : Bool} (hname : IsTagName name)
    (h : Encloses model name s closed)
    (hstop : stop = [] ∨ closed = true ∧ ∃ rest, stop = (Piece.endTag name).write ++ rest) :
    readContent model name (s ++ stop) =
      (readContent model name stop).prepend (s.flatMap contentTokens) := by
  have hletters := isAlpha_of_contentModel? (Option.isSome_of_mem hcontent)
  obtain ⟨cover, hcover, hhides⟩ := h
  obtain rfl | ⟨hclosed, rest, rfl⟩ := hstop
  · rw [readContent_nil, readContent_eq_verbatimText hmodel,
      verbatimText_append hletters (by simp) hcover]
    rfl
  · have hangle : ∀ c ∈ ((Piece.endTag name).write ++ rest).head?, c = '<' := by
      simp [write_endTag_append]
    rw [readContent_endTag hname, readContent_eq_verbatimText hmodel,
      verbatimText_append hletters hangle hcover, verbatimText_endTag hname model (hhides hclosed)]

/-- What is read as content can be written as it is. It is closed if its end tag was found. -/
theorem exists_readContent (s : Text) :
    ∃ body rest, s = body ++ rest ∧
      (readContent model name s).tokens = body.flatMap contentTokens ∧
      (∀ tail ∈ (readContent model name s).tail?, afterEndTagName? name rest = some tail) ∧
      Encloses model name (body.map visible) (readContent model name s).tail?.isSome := by
  have hletters := isAlpha_of_contentModel? (Option.isSome_of_mem hcontent)
  obtain ⟨body, rest, cover, hs, -, hcover, htokens, htail⟩ :=
    exists_verbatimText hletters model .bare s
  rw [readContent_eq_verbatimText hmodel]
  refine ⟨body, rest, hs, htokens, fun tail hmem => (htail tail hmem).2, cover, ?_, ?_⟩
  · rw [coverAfter?_map_visible hletters, hcover]
  · intro hclosed
    obtain ⟨tail, hmem⟩ := Option.isSome_iff_exists.1 hclosed
    exact (htail tail hmem).1

end

/-- Text without a `<` ends no element and hides nothing. -/
theorem encloses_of_not_mem {s : Text} (hs : '<' ∉ s) (model : ContentModel) (name : Text)
    (closed : Bool) : Encloses model name s closed := by
  refine ⟨.bare, ?_, fun _ => rfl⟩
  induction s with
  | nil => rfl
  | cons c s ih =>
    have hangle : c ≠ '<' := fun heq => hs (by simp [heq])
    have hend : afterEndTagName? name (c :: s) = none := by
      simp [afterEndTagName?, hangle]
    have hnext : model.next .bare c s = .bare := by
      simp [ContentModel.next, Hiding.next]
    rw [coverAfter?, hend, hnext, if_neg (by simp), ih fun hmem => hs (by simp [hmem])]

end PostMarkup.Html
