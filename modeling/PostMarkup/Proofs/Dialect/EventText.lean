import PostMarkup.Proofs.Dialect.Locality

namespace PostMarkup.Dialect

/-- The character data of an event stands in the text as it is. -/
def Event.IsFrom (s : Text) : Event → Prop
  | .character c => c ∈ s ∧ c ≠ '<' ∧ c ≠ '&'
  | .reference name => '<' ∉ name ∧ '&' ∉ name
  | .literal content => content ⊆ s
  | _ => True

theorem Event.IsFrom.append {event : Event} {s : Text} (h : event.IsFrom s) (before : Text) :
    event.IsFrom (before ++ s) := by
  cases event with
  | character c => exact ⟨List.mem_append_right before h.1, h.2⟩
  | reference name => exact h
  | literal content => exact List.Subset.trans h (List.subset_append_right before s)
  | _ => exact trivial

theorem isFrom_startTag (inside s : Text) : (startTag inside).IsFrom s := by
  unfold startTag
  split <;> exact trivial

theorem isFrom_endTag (inside s : Text) : (endTag inside).IsFrom s := by
  unfold endTag
  split <;> exact trivial

theorem isFrom_of_readReference {s rest : Text} {event : Event}
    (hread : readReference s = .event event rest) (t : Text) : event.IsFrom t := by
  simp only [readReference] at hread
  split at hread
  · obtain ⟨rfl, -⟩ := Step.event.inj hread
    exact ⟨fun hmem => by simpa using Text.of_mem_takeWhile hmem,
      fun hmem => by simpa using Text.of_mem_takeWhile hmem⟩
  · contradiction

theorem isFrom_of_readInstruction {s rest : Text} {event : Event}
    (hread : readInstruction s = .event event rest) (t : Text) : event.IsFrom t := by
  simp only [readInstruction] at hread
  split at hread
  · contradiction
  · split at hread
    · obtain ⟨rfl, -⟩ := Step.event.inj hread
      exact trivial
    · contradiction

theorem isFrom_of_readDocumentType {whole s rest : Text} {event : Event}
    (hread : readDocumentType whole s = .event event rest) (t : Text) : event.IsFrom t := by
  simp only [readDocumentType] at hread
  split at hread
  · contradiction
  · split at hread
    · contradiction
    · obtain ⟨rfl, -⟩ := Step.event.inj hread
      exact trivial

theorem isFrom_of_readDeclaration {s rest : Text} {event : Event}
    (hread : readDeclaration s = .event event rest) : event.IsFrom s := by
  simp only [readDeclaration] at hread
  split at hread
  · split at hread
    · obtain ⟨rfl, -⟩ := Step.event.inj hread
      exact trivial
    · contradiction
  · split at hread
    · next content tail hbind =>
      obtain ⟨rfl, -⟩ := Step.event.inj hread
      obtain ⟨middle, hafter, hcut⟩ := Option.bind_eq_some_iff.1 hbind
      have hsource := Text.after?_eq_some_iff.1 hafter
      rw [Text.append_of_upTo? hcut] at hsource
      rw [hsource]
      intro c hc
      simp [hc]
    · contradiction
  · split at hread
    · split at hread
      · exact isFrom_of_readDocumentType hread _
      · contradiction
    · contradiction
  · contradiction

theorem isFrom_of_nextEvent {s rest : Text} {event : Event}
    (hnext : nextEvent s = .event event rest) : event.IsFrom s := by
  unfold nextEvent at hnext
  split at hnext
  · contradiction
  · exact isFrom_of_readReference hnext _
  · exact (isFrom_of_readDeclaration hnext).append ['<', '!']
  · exact isFrom_of_readInstruction hnext _
  · obtain ⟨inside, -, rfl, -⟩ := exists_of_readTag hnext
    exact isFrom_endTag inside _
  · obtain ⟨inside, -, rfl, -⟩ := exists_of_readTag hnext
    exact isFrom_startTag inside _
  · next hampersand _ _ _ hangle =>
    obtain ⟨rfl, -⟩ := Step.event.inj hnext
    exact ⟨by simp, hangle, hampersand⟩

/-- Reading on only passes over text, so what a later event brings stands in the whole text too. -/
theorem isFrom_of_mem_readFrom {opens : List Text} {s : Text} :
    ∀ event ∈ (readFrom opens s).events, event.IsFrom s := by
  fun_induction readFrom opens s with
  | case1 => simp
  | case2 => simp
  | case3 => simp
  | case4 opens s event rest hnext inner hopens later ih =>
    obtain ⟨taken, rfl, -⟩ := exists_spells_of_nextEvent hnext
    intro other hother
    obtain rfl | hother := List.mem_cons.1 hother
    · exact isFrom_of_nextEvent hnext
    · exact (ih other hother).append taken

end PostMarkup.Dialect
