import PostMarkup.Proofs.Dialect.Reading
import PostMarkup.Proofs.Dialect.TagReading

namespace PostMarkup.Dialect

/-- An event as reading gives it. -/
def Event.IsRead : Event → Prop
  | .character c => c ≠ '<' ∧ c ≠ '&'
  | .reference name => ∀ c ∈ name, c ≠ ';' ∧ c ≠ '&' ∧ c ≠ '<'
  | .startTag _ attributes | .emptyTag _ attributes =>
    (attributes.map Attribute.key).Nodup ∧ ∀ entry ∈ attributes, IsFoundKey entry.key
  | .directive written => Spells written (.directive written)
  | _ => True

/-- Reading passes over an attribute whose key it has seen. -/
theorem nodup_key_readAttributes (seen : List Text) (s : Text) :
    ((readAttributes seen s).map Attribute.key).Nodup ∧
      ∀ key ∈ (readAttributes seen s).map Attribute.key, key ∉ seen := by
  fun_induction readAttributes seen s with
  | case1 => simp
  | case2 => simp
  | case3 seen s c s₁ hblank key s₂ hequals hseen ih => exact ih
  | case4 => simp
  | case5 seen s c s₁ hblank key s₂ hequals hseen quote s₃ hvalue hquote value rest hcut ih =>
    obtain ⟨hdistinct, hfresh⟩ := ih
    refine ⟨?_, ?_⟩
    · rw [List.map_cons, List.nodup_cons]
      exact ⟨fun hmem => hfresh key hmem (by simp), hdistinct⟩
    · rw [List.map_cons, List.forall_mem_cons]
      exact ⟨hseen, fun other hother hmem => hfresh other hother (by simp [hmem])⟩
  | case6 => simp
  | case7 seen s c s₁ hblank key s₂ hequals hseen quote s₃ hvalue hquote ih =>
    exact ⟨ih.1, fun other hother hmem => ih.2 other hother (by simp [hmem])⟩
  | case8 seen s c s₁ hblank s₂ hequals ih => exact ih

theorem isFoundKey_of_mem_readAttributes (seen : List Text) (s : Text) :
    ∀ entry ∈ readAttributes seen s, IsFoundKey entry.key := by
  fun_induction readAttributes seen s with
  | case1 => simp
  | case2 => simp
  | case3 seen s c s₁ hblank key s₂ hequals hseen ih => exact ih
  | case4 => simp
  | case5 seen s c s₁ hblank key s₂ hequals hseen quote s₃ hvalue hquote value rest hcut ih =>
    refine List.forall_mem_cons.2 ⟨?_, ih⟩
    have hc : isSeparator c = false := by
      have hhead := List.head?_dropWhile_not isSeparator s
      rw [hblank] at hhead
      simpa using hhead
    have htail : ∀ d ∈ s₁.takeWhile fun c => c ≠ '=' && !isSeparator c,
        d ≠ '=' ∧ isSeparator d = false := fun d hd => by
      simpa using Text.of_mem_takeWhile hd
    exact {
      nonempty := List.cons_ne_nil _ _
      separators := List.forall_mem_cons.2 ⟨hc, fun d hd => (htail d hd).2⟩
      equals := fun hmem => (htail '=' hmem).1 rfl }
  | case6 => simp
  | case7 seen s c s₁ hblank key s₂ hequals hseen quote s₃ hvalue hquote ih => exact ih
  | case8 seen s c s₁ hblank s₂ hequals ih => exact ih

namespace DocumentType

/-- Before a quote or a bracket, separators are passed over. -/
theorem closing?_outer_cons {c : Char} (hc : isSeparator c) (s : Text) :
    closing? .outer (c :: s) = closing? .outer s := by
  have hangle : c ≠ '>' := fun heq => by simp [heq, isSeparator] at hc
  have hbracket : c ≠ '[' := fun heq => by simp [heq, isSeparator] at hc
  have hquote : isQuote c = false := by
    simp only [isSeparator, Bool.or_eq_true, decide_eq_true_eq, or_assoc] at hc
    obtain rfl | rfl | rfl | rfl := hc <;> rfl
  simp [closing?, hangle, hbracket, hquote]

theorem closesAfter_dropWhile {body : Text} (hbody : ClosesAfter .outer body) :
    ClosesAfter .outer (body.dropWhile isSeparator) := by
  induction body with
  | nil => exact hbody
  | cons c body ih =>
    by_cases hc : isSeparator c
    · rw [List.dropWhile_cons_of_pos hc]
      exact ih fun s => (closing?_outer_cons hc (body ++ '>' :: s)).symm.trans (hbody s)
    · rwa [List.dropWhile_cons_of_neg hc]

end DocumentType

theorem spells_documentType {content : Text} (hcontent : DocumentType.ClosesAfter .outer content)
    (hhead : content.head?.any isSeparator = false) (hnonempty : content ≠ []) :
    Spells ("<!DOCTYPE ".toList ++ content ++ ['>'])
      (.directive ("<!DOCTYPE ".toList ++ content ++ ['>'])) := by
  intro s
  have hcloses : DocumentType.closing? .outer (' ' :: (content ++ '>' :: s)) = some ('>' :: s) := by
    rw [DocumentType.closing?_outer_cons (by decide), hcontent s]
  have hbody (body : Text) : (body ++ '>' :: s).take ((body ++ '>' :: s).length -
      ('>' :: s).length) = body := by simp
  have hdrop : (' ' :: content).dropWhile isSeparator = content := by
    obtain ⟨c, content, rfl⟩ := List.exists_cons_of_ne_nil hnonempty
    have hc : ¬ isSeparator c := by simpa using hhead
    rw [List.dropWhile_cons_of_pos (by decide), List.dropWhile_cons_of_neg hc]
  have hletters : Text.afterAnyCase? "doctype".toList ('D' :: "OCTYPE".toList) = some [] := by decide
  obtain ⟨found, hfound, hlead⟩ := exists_nextEvent_eq_readDocumentType (.inl rfl) hletters
  rw [List.append_nil] at hfound
  have hread := hlead (' ' :: (content ++ '>' :: s))
  rw [← hfound, readDocumentType, hcloses] at hread
  simp only [← List.cons_append, hbody, hdrop] at hread
  simpa using hread

theorem isRead_of_readReference {s rest : Text} {event : Event}
    (hread : readReference s = .event event rest) : event.IsRead := by
  simp only [readReference] at hread
  split at hread
  · obtain ⟨rfl, -⟩ := Step.event.inj hread
    intro c hc
    simpa [and_assoc] using Text.of_mem_takeWhile hc
  · contradiction

theorem isRead_of_readInstruction {s rest : Text} {event : Event}
    (hread : readInstruction s = .event event rest) : event.IsRead := by
  simp only [readInstruction] at hread
  split at hread
  · contradiction
  · next hhead =>
    split at hread
    · next content tail hcut =>
      obtain ⟨rfl, -⟩ := Step.event.inj hread
      have hsource := Text.append_of_upTo? hcut
      have hhead : content.head? ≠ some '>' := by
        cases content with
        | nil => simp
        | cons c content => simpa [hsource] using hhead
      exact spells_instruction hhead (Text.upTo?_exchange hcut)
    · contradiction

theorem isRead_of_readDocumentType {whole s rest : Text} {event : Event}
    (hread : readDocumentType whole s = .event event rest) : event.IsRead := by
  simp only [readDocumentType] at hread
  split at hread
  · contradiction
  · next closing hclosing =>
    obtain ⟨body, tail, rfl, rfl, hbody⟩ := DocumentType.closing?_exchange hclosing
    have hcut : (body ++ '>' :: tail).take ((body ++ '>' :: tail).length - ('>' :: tail).length) =
        body := by simp
    rw [hcut] at hread
    split at hread
    · contradiction
    · next hblank =>
      obtain ⟨rfl, -⟩ := Step.event.inj hread
      have hhead := List.head?_dropWhile_not isSeparator body
      refine spells_documentType (DocumentType.closesAfter_dropWhile hbody) ?_ hblank
      cases hfirst : (body.dropWhile isSeparator).head? with
      | none => rfl
      | some c => simpa [hfirst] using hhead

theorem isRead_of_readDeclaration {s rest : Text} {event : Event}
    (hread : readDeclaration s = .event event rest) : event.IsRead := by
  simp only [readDeclaration] at hread
  split at hread
  · split at hread
    · next hbind =>
      obtain ⟨rfl, -⟩ := Step.event.inj hread
      obtain ⟨middle, -, hcut⟩ := Option.bind_eq_some_iff.1 hbind
      exact spells_comment (Text.upTo?_exchange hcut)
    · contradiction
  · split at hread
    · obtain ⟨rfl, -⟩ := Step.event.inj hread
      exact trivial
    · contradiction
  · split at hread
    · split at hread
      · exact isRead_of_readDocumentType hread
      · contradiction
    · contradiction
  · contradiction

theorem isRead_startTag (inside : Text) : (startTag inside).IsRead := by
  unfold startTag
  split <;> exact ⟨(nodup_key_readAttributes [] _).1, isFoundKey_of_mem_readAttributes [] _⟩

theorem isRead_endTag (inside : Text) : (endTag inside).IsRead := by
  unfold endTag
  split <;> exact trivial

theorem isRead_of_nextEvent {s rest : Text} {event : Event}
    (hnext : nextEvent s = .event event rest) : event.IsRead := by
  unfold nextEvent at hnext
  split at hnext
  · contradiction
  · exact isRead_of_readReference hnext
  · exact isRead_of_readDeclaration hnext
  · exact isRead_of_readInstruction hnext
  · obtain ⟨inside, -, rfl, -⟩ := exists_of_readTag hnext
    exact isRead_endTag inside
  · obtain ⟨inside, -, rfl, -⟩ := exists_of_readTag hnext
    exact isRead_startTag inside
  · next hampersand _ _ _ hangle =>
    obtain ⟨rfl, -⟩ := Step.event.inj hnext
    exact ⟨hangle, hampersand⟩

theorem isRead_of_mem_readFrom (opens : List Text) (s : Text) :
    ∀ event ∈ (readFrom opens s).events, event.IsRead := by
  fun_induction readFrom opens s with
  | case1 => simp
  | case2 => simp
  | case3 => simp
  | case4 opens s event rest hnext inner hopens later ih =>
    exact List.forall_mem_cons.2 ⟨isRead_of_nextEvent hnext, ih⟩

end PostMarkup.Dialect
