import PostMarkup.Proofs.Html.TokenShape
import PostMarkup.Proofs.Reference.Locality

namespace PostMarkup.Html

/-- Written text as it is read. -/
def decodeText (s : Text) : Text :=
  match s with
  | [] => []
  | '&' :: s =>
    let found := Reference.read .runningText s
    found.text ++ decodeText found.rest
  | c :: s => c :: decodeText s
termination_by s.length
decreasing_by
  · have hle := Reference.length_read_le .runningText s
    exact Nat.lt_succ_of_le hle
  · simp

theorem decodeText_nil : decodeText [] = [] := by
  rw [decodeText]

theorem decodeText_ampersand (s : Text) :
    decodeText ('&' :: s) = (Reference.read .runningText s).text ++
      decodeText (Reference.read .runningText s).rest := by
  rw [decodeText]

theorem decodeText_cons {c : Char} (hc : c ≠ '&') (s : Text) :
    decodeText (c :: s) = c :: decodeText s := by
  rw [decodeText]
  exact hc

/-- A character is escaped as a reference to it, or is none of those that need it. -/
theorem escapeText_cons (c : Char) (s : Text) :
    (∃ name, (c, name) ∈ Reference.escapes ∧
      escapeText (c :: s) = '&' :: (name ++ ';' :: escapeText s)) ∨
    c ≠ '<' ∧ c ≠ '&' ∧ escapeText (c :: s) = c :: escapeText s := by
  rw [escapeText, List.flatMap_cons, ← escapeText]
  split
  · exact .inl ⟨"lt".toList, by decide, rfl⟩
  · exact .inl ⟨"gt".toList, by decide, rfl⟩
  · exact .inl ⟨"amp".toList, by decide, rfl⟩
  · next hangle _ hampersand => exact .inr ⟨hangle, hampersand, rfl⟩

theorem mem_escapeText {c : Char} {s : Text} (hmem : c ∈ escapeText s) :
    c ∈ "&lgtamp;".toList ∨ c ≠ '<' ∧ c ∈ s := by
  obtain ⟨d, hd, hmem⟩ := List.mem_flatMap.1 hmem
  split at hmem
  · exact .inl ((by decide : "&lt;".toList ⊆ "&lgtamp;".toList) hmem)
  · exact .inl ((by decide : "&gt;".toList ⊆ "&lgtamp;".toList) hmem)
  · exact .inl ((by decide : "&amp;".toList ⊆ "&lgtamp;".toList) hmem)
  · next hangle _ _ =>
    obtain rfl := List.mem_singleton.1 hmem
    exact .inr ⟨hangle, hd⟩

theorem angle_not_mem_escapeText (s : Text) : '<' ∉ escapeText s := by
  intro hmem
  obtain hmem | ⟨hangle, -⟩ := mem_escapeText hmem
  · exact absurd hmem (by decide)
  · exact hangle rfl

theorem not_mem_escapeText {c : Char} (hc : c ∉ "&lgtamp;".toList) {s : Text} (hs : c ∉ s) :
    c ∉ escapeText s := by
  intro hmem
  obtain hmem | ⟨-, hmem⟩ := mem_escapeText hmem
  · exact hc hmem
  · exact hs hmem

theorem length_le_escapeText (s : Text) : s.length ≤ (escapeText s).length := by
  induction s with
  | nil => simp
  | cons c s ih =>
    obtain ⟨name, -, heq⟩ | ⟨-, -, heq⟩ := escapeText_cons c s
    · rw [heq]
      simp only [List.length_cons, List.length_append]
      omega
    · simpa [heq] using ih

/-- Escaping changes a text exactly if there is something in it to escape. -/
theorem escapeText_eq_self_iff (s : Text) : escapeText s = s ↔ ∀ c ∈ s, c ∉ "<>&".toList := by
  induction s with
  | nil => simp [escapeText]
  | cons c s ih =>
    rw [List.forall_mem_cons, ← ih, escapeText, List.flatMap_cons, ← escapeText]
    split
    · simp
    · simp
    · have hlength := length_le_escapeText s
      refine iff_of_false (fun heq => ?_) (by simp)
      have hwhole := congrArg List.length heq
      simp only [String.reduceToList, List.length_append, List.length_cons, List.length_nil] at hwhole
      omega
    · next hless hgreater hampersand => simpa using fun _ => ⟨hless, hgreater, hampersand⟩

/-- Escaped text is read as it was. -/
theorem decodeText_escapeText (s : Text) : decodeText (escapeText s) = s := by
  induction s with
  | nil => exact decodeText_nil
  | cons c s ih =>
    obtain ⟨name, hescape, heq⟩ | ⟨-, hampersand, heq⟩ := escapeText_cons c s
    · rw [heq, decodeText_ampersand, Reference.read_escape hescape, ih]
      rfl
    · rw [heq, decodeText_cons hampersand, ih]

theorem null_not_mem_decodeText {s : Text} (hs : '\x00' ∉ s) : '\x00' ∉ decodeText s := by
  fun_induction decodeText s with
  | case1 => simp
  | case2 s found ih =>
    have hsuffix : found.rest <:+ s := suffix_of_takes (Reference.takes_read .runningText s)
    have htext := Reference.null_not_mem_read .runningText s
    have hrest := ih fun hmem => hs (by simp [hsuffix.subset hmem])
    exact fun hmem => (List.mem_append.1 hmem).elim htext hrest
  | case3 c s _ ih =>
    have hrest := ih fun hmem => hs (by simp [hmem])
    have hc : '\x00' ≠ c := fun heq => hs (heq ▸ List.mem_cons_self)
    simp [hrest, hc]

/-- A reader of text up to the next `<`: references are decoded, and any other character is taken by
    itself, in the form in which it is shown. What has been found is put before what is read after
    it. Only U+0000 is not shown as it is. -/
structure Decodes {α : Type} (read : Text → α) (prepend : List Token → α → α)
    (shown : Char → Text) : Prop where
  nil : ∀ later, prepend [] later = later
  append : ∀ found more later, prepend found (prepend more later) = prepend (found ++ more) later
  reference : ∀ s, read ('&' :: s) = prepend (referenceTokens (Reference.read .runningText s))
    (read (Reference.read .runningText s).rest)
  character : ∀ c s, c ≠ '<' → c ≠ '&' → ∃ found, Textual found ∧
    found.flatMap Token.chars = shown c ∧ read (c :: s) = prepend found (read s)
  shown : ∀ c, c ≠ '\x00' → shown c = [c]

/-- In ordinary text U+0000 is left out. -/
def withoutNull (c : Char) : Text := if c = '\x00' then [] else [c]

theorem decodes_tokens : Decodes tokens (· ++ ·) withoutNull where
  nil := List.nil_append
  append found more later := (List.append_assoc found more later).symm
  reference s := by rw [tokens]
  character c s hangle hampersand := by
    refine ⟨if c = '\x00' then [.parseError, .null] else [.text [c]], ?_, ?_, ?_⟩
    · split <;> simp [Textual, Token.isTextual]
    · unfold withoutNull
      split <;> rfl
    · rw [tokens]
      · exact hangle
      · exact hampersand
  shown c hc := if_neg hc

theorem Content.prepend_prepend (tokens more : List Token) (content : Content) :
    (content.prepend more).prepend tokens = content.prepend (tokens ++ more) := by
  simp [Content.prepend]

theorem decodes_escapableText (name : Text) :
    Decodes (escapableText name) (fun found content => content.prepend found)
      (fun c => [visible c]) where
  nil _ := rfl
  append := Content.prepend_prepend
  reference s := by rw [escapableText]
  character c s hangle hampersand := by
    have hend : afterEndTagName? name (c :: s) = none := by
      simp [afterEndTagName?, hangle]
    refine ⟨contentTokens c, textual_contentTokens c, flatMap_chars_contentTokens c, ?_⟩
    rw [escapableText, hend]
    exact hampersand
  shown c hc := by rw [visible, if_neg hc]

theorem isReferenceCharacter_of_angle {stop : Text} (hstop : ∀ c ∈ stop.head?, c = '<') :
    ∀ c ∈ stop.head?, Reference.isReferenceCharacter c = false := by
  intro c hc
  obtain rfl := hstop c hc
  decide

theorem flatMap_shown {shown : Char → Text} (hshown : ∀ c, c ≠ '\x00' → shown c = [c]) {s : Text}
    (hs : '\x00' ∉ s) : s.flatMap shown = s := by
  induction s with
  | nil => rfl
  | cons c s ih =>
    have hc : c ≠ '\x00' := fun heq => hs (by simp [heq])
    rw [List.flatMap_cons, hshown c hc, ih fun hmem => hs (by simp [hmem])]
    rfl

/-- Text without a `<` is read as text, up to markup or the end. -/
theorem Decodes.exists_append {α : Type} {read : Text → α} {prepend : List Token → α → α}
    {shown : Char → Text} (h : Decodes read prepend shown) {s stop : Text} (hs : '<' ∉ s)
    (hstop : ∀ c ∈ stop.head?, c = '<') :
    ∃ found, Textual found ∧ found.flatMap Token.chars = (decodeText s).flatMap shown ∧
      read (s ++ stop) = prepend found (read stop) := by
  fun_induction decodeText s with
  | case1 => exact ⟨[], textual_nil, rfl, (h.nil _).symm⟩
  | case2 s first ih =>
    have hsuffix : first.rest <:+ s := suffix_of_takes (Reference.takes_read .runningText s)
    obtain ⟨found, hfound, hchars, hread⟩ := ih fun hmem => hs (by simp [hsuffix.subset hmem])
    have hfirst : Reference.read .runningText (s ++ stop) = first.before stop :=
      Reference.read_append (isReferenceCharacter_of_angle hstop) s
    refine ⟨_, (textual_referenceTokens first).append hfound, ?_, ?_⟩
    · have hnull : '\x00' ∉ first.text := Reference.null_not_mem_read .runningText s
      rw [List.flatMap_append, flatMap_chars_referenceTokens, hchars, List.flatMap_append,
        flatMap_shown h.shown hnull]
    · rw [List.cons_append, h.reference, hfirst]
      change prepend (referenceTokens first) (read (first.rest ++ stop)) = _
      rw [hread, h.append]
  | case3 c s hampersand ih =>
    have hangle : c ≠ '<' := fun heq => hs (by simp [heq])
    obtain ⟨found, hfound, hchars, hread⟩ := ih fun hmem => hs (by simp [hmem])
    obtain ⟨first, hfirst, hchar, hcharacter⟩ := h.character c (s ++ stop) hangle hampersand
    refine ⟨first ++ found, hfirst.append hfound, ?_, ?_⟩
    · rw [List.flatMap_append, hchar, hchars, List.flatMap_cons]
    · rw [List.cons_append, hcharacter, hread, h.append]

end PostMarkup.Html
