import PostMarkup.Proofs.Dialect.Locality

namespace PostMarkup.Dialect

/-- A reading with more events before it. -/
def Reading.precededBy (events : List Event) (reading : Reading) : Reading :=
  { reading with events := events ++ reading.events }

@[simp]
theorem Reading.precededBy_nil (reading : Reading) : reading.precededBy [] = reading := rfl

@[simp]
theorem Reading.precededBy_precededBy (events more : List Event) (reading : Reading) :
    (reading.precededBy more).precededBy events = reading.precededBy (events ++ more) := by
  simp [Reading.precededBy]

@[simp]
theorem readFrom_nil (opens : List Text) : readFrom opens [] = ⟨[], none⟩ := by
  unfold readFrom
  rfl

theorem readFrom_of_spells {opens inner : List Text} {taken : Text} {event : Event}
    (hspells : Spells taken event) (hopens : openAfter opens event = .ok inner) (s : Text) :
    readFrom opens (taken ++ s) = (readFrom inner s).precededBy [event] := by
  conv => lhs; unfold readFrom
  split
  · next hnext => rw [hspells s] at hnext; contradiction
  · next hnext => rw [hspells s] at hnext; contradiction
  · next hnext =>
    rw [hspells s] at hnext
    obtain ⟨rfl, rfl⟩ := Step.event.inj hnext
    simp only [hopens]
    rfl

theorem readFrom_of_failed {s remaining : Text} {fault : Fault}
    (hnext : nextEvent s = .failed fault remaining) (opens : List Text) :
    readFrom opens s = ⟨[], some (fault, remaining)⟩ := by
  unfold readFrom
  split
  · next hother => rw [hnext] at hother; contradiction
  · next hother =>
    rw [hnext] at hother
    obtain ⟨rfl, rfl⟩ := Step.failed.inj hother
    rfl
  · next hother => rw [hnext] at hother; contradiction

theorem readDocumentType_ne_finished (whole s : Text) : readDocumentType whole s ≠ .finished := by
  intro hread
  simp only [readDocumentType] at hread
  split at hread
  · contradiction
  · split at hread <;> contradiction

theorem readDeclaration_ne_finished (s : Text) : readDeclaration s ≠ .finished := by
  intro hread
  simp only [readDeclaration] at hread
  split at hread
  · split at hread <;> contradiction
  · split at hread <;> contradiction
  · split at hread
    · split at hread
      · exact readDocumentType_ne_finished _ _ hread
      · contradiction
    · contradiction
  · contradiction

theorem readInstruction_ne_finished (s : Text) : readInstruction s ≠ .finished := by
  intro hread
  simp only [readInstruction] at hread
  split at hread
  · contradiction
  · split at hread <;> contradiction

theorem readTag_ne_finished (whole s : Text) (tag : Text → Event) :
    readTag whole s tag ≠ .finished := by
  intro hread
  simp only [readTag] at hread
  split at hread <;> contradiction

theorem readReference_ne_finished (s : Text) : readReference s ≠ .finished := by
  intro hread
  simp only [readReference] at hread
  split at hread <;> contradiction

/-- Reading is finished only where the text is. -/
theorem eq_nil_of_nextEvent {s : Text} (hnext : nextEvent s = .finished) : s = [] := by
  unfold nextEvent at hnext
  split at hnext
  · rfl
  · exact absurd hnext (readReference_ne_finished _)
  · exact absurd hnext (readDeclaration_ne_finished _)
  · exact absurd hnext (readInstruction_ne_finished _)
  · exact absurd hnext (readTag_ne_finished _ _ _)
  · exact absurd hnext (readTag_ne_finished _ _ _)
  · contradiction

/-- Where a step through the open elements succeeds, so did what came before it. -/
theorem exists_of_bind_openAfter {x : Except Fault (List Text)}
    {f : List Text → Except Fault (List Text)} {inner : List Text} (h : x >>= f = .ok inner) :
    ∃ middle, x = .ok middle ∧ f middle = .ok inner := by
  cases x with
  | error fault => contradiction
  | ok middle => exact ⟨middle, rfl, h⟩

/-- Accepted text is read as it was whatever follows it, and what follows is read inside the elements
    that are open after it. -/
theorem exists_readFrom_append {opens : List Text} {s : Text}
    (haccepted : (readFrom opens s).failure = none) :
    ∃ inner, (readFrom opens s).events.foldlM openAfter opens = .ok inner ∧
      ∀ t, readFrom opens (s ++ t) = (readFrom inner t).precededBy (readFrom opens s).events := by
  fun_induction readFrom opens s with
  | case1 opens s hnext =>
    obtain rfl := eq_nil_of_nextEvent hnext
    exact ⟨opens, rfl, fun t => rfl⟩
  | case2 => contradiction
  | case3 => contradiction
  | case4 opens s event rest hnext inner hopens _ ih =>
    obtain ⟨taken, rfl, htaken⟩ := exists_spells_of_nextEvent hnext
    obtain ⟨final, hfinal, hlater⟩ := ih haccepted
    refine ⟨final, ?_, fun t => ?_⟩
    · rw [List.foldlM_cons, hopens]
      exact hfinal
    · rw [List.append_assoc, readFrom_of_spells htaken hopens, hlater,
        Reading.precededBy_precededBy]
      rfl

end PostMarkup.Dialect
