import PostMarkup.Dialect.Conversion
import PostMarkup.Proofs.Dialect.ReadEvents

namespace PostMarkup.Dialect

namespace DocumentType

theorem closing?_separators {s : Text} (hblank : ∀ c ∈ s, isSeparator c) :
    closing? .outer s = none := by
  induction s with
  | nil => rfl
  | cons c s ih =>
    obtain ⟨hc, hrest⟩ := List.forall_mem_cons.1 hblank
    rw [closing?_outer_cons hc, ih hrest]

end DocumentType

/-- Where a fault of some markup is reported. The markup itself is the place of every fault but one,
    and of that one what stands before its place is faulty as well. -/
def Fault.PlacedIn (whole remaining : Text) (fault : Fault) : Prop :=
  (fault ≠ .namelessDocumentType ∧ remaining = whole) ∨
    (fault = .namelessDocumentType ∧ ∃ before other place, whole = before ++ remaining ∧
      nextEvent before = .failed other place)

theorem Fault.PlacedIn.of_failed_whole {whole remaining : Text} {fault found : Fault}
    (hread : Step.failed found whole = .failed fault remaining)
    (hfound : found ≠ .namelessDocumentType) : fault.PlacedIn whole remaining := by
  obtain ⟨rfl, rfl⟩ := Step.failed.inj hread
  exact .inl ⟨hfound, rfl⟩

theorem placedIn_of_readDocumentType {lead s remaining : Text} {fault : Fault}
    (hlead : ∀ t, nextEvent (lead ++ t) = readDocumentType (lead ++ t) t)
    (hread : readDocumentType (lead ++ s) s = .failed fault remaining) :
    fault.PlacedIn (lead ++ s) remaining := by
  simp only [readDocumentType] at hread
  split at hread
  · exact .of_failed_whole hread (by simp)
  · next closing hclosing =>
    obtain ⟨body, tail, rfl, rfl, -⟩ := DocumentType.closing?_exchange hclosing
    split at hread
    · next hblank =>
      obtain ⟨rfl, rfl⟩ := Step.failed.inj hread
      have hbody : ∀ c ∈ body, isSeparator c := by
        intro c hc
        have hall := List.takeWhile_append_dropWhile (l := body) (p := isSeparator)
        simp only [List.length_append, Nat.add_sub_cancel, List.take_left'] at hblank
        rw [hblank, List.append_nil] at hall
        rw [← hall] at hc
        exact Text.of_mem_takeWhile hc
      refine .inr ⟨rfl, lead ++ body, .unclosed .documentType, lead ++ body, by simp, ?_⟩
      rw [hlead, readDocumentType, DocumentType.closing?_separators hbody]
    · contradiction

theorem placedIn_of_readDeclaration {s remaining : Text} {fault : Fault}
    (hread : readDeclaration s = .failed fault remaining) :
    fault.PlacedIn ('<' :: '!' :: s) remaining := by
  simp only [readDeclaration] at hread
  split at hread
  · split at hread
    · contradiction
    · exact .of_failed_whole hread (by simp)
  · split at hread
    · contradiction
    · exact .of_failed_whole hread (by simp)
  · split at hread
    · next hletter =>
      split at hread
      · next hafter =>
        obtain ⟨found, hfound, hlead⟩ :=
          exists_nextEvent_eq_readDocumentType (by simpa using hletter) hafter
        rw [hfound] at hread ⊢
        exact placedIn_of_readDocumentType hlead hread
      · exact .of_failed_whole hread (by simp)
    · exact .of_failed_whole hread (by simp)
  · exact .of_failed_whole hread (by simp)

theorem placedIn_of_readInstruction {s remaining : Text} {fault : Fault}
    (hread : readInstruction s = .failed fault remaining) :
    fault.PlacedIn ('<' :: '?' :: s) remaining := by
  simp only [readInstruction] at hread
  split at hread
  · exact .of_failed_whole hread (by simp)
  · split at hread
    · contradiction
    · exact .of_failed_whole hread (by simp)

theorem placedIn_of_readReference {s remaining : Text} {fault : Fault}
    (hread : readReference s = .failed fault remaining) : fault.PlacedIn ('&' :: s) remaining := by
  simp only [readReference] at hread
  split at hread
  · contradiction
  · exact .of_failed_whole hread (by simp)

theorem placedIn_of_readTag {whole s remaining : Text} {tag : Text → Event} {fault : Fault}
    (hread : readTag whole s tag = .failed fault remaining) : fault.PlacedIn whole remaining := by
  simp only [readTag] at hread
  split at hread
  · contradiction
  · exact .of_failed_whole hread (by simp)

theorem placedIn_of_nextEvent {s remaining : Text} {fault : Fault}
    (hnext : nextEvent s = .failed fault remaining) : fault.PlacedIn s remaining := by
  unfold nextEvent at hnext
  split at hnext
  · contradiction
  · exact placedIn_of_readReference hnext
  · exact placedIn_of_readDeclaration hnext
  · exact placedIn_of_readInstruction hnext
  · exact placedIn_of_readTag hnext
  · exact placedIn_of_readTag hnext
  · contradiction

theorem ne_namelessDocumentType_of_openAfter {opens : List Text} {event : Event} {fault : Fault}
    (hopens : openAfter opens event = .error fault) : fault ≠ .namelessDocumentType := by
  rintro rfl
  cases event with
  | endTag name =>
    cases opens with
    | nil => simp [openAfter] at hopens
    | cons expected outer =>
      simp only [openAfter] at hopens
      split at hopens <;> simp at hopens
  | _ => simp [openAfter] at hopens

/-- A reading that stops at a fault has the same events as the reading of the text before the place
    of that fault. The induction follows the reader: all events but the last step are read from both
    texts alike. -/
theorem readFrom_before_failure {opens : List Text} {s remaining : Text} {fault : Fault}
    (hfailure : (readFrom opens s).failure = some (fault, remaining)) :
    ∃ before, s = before ++ remaining ∧
      (readFrom opens before).events = (readFrom opens s).events ∧
      ((readFrom opens before).failure = none ↔ fault ≠ .namelessDocumentType) := by
  fun_induction readFrom opens s with
  | case1 => contradiction
  | case2 opens s found place hnext =>
    obtain ⟨rfl, rfl⟩ := Prod.mk.inj (Option.some.inj hfailure)
    obtain ⟨hfault, rfl⟩ | ⟨rfl, before, other, place, rfl, hbefore⟩ := placedIn_of_nextEvent hnext
    · exact ⟨[], rfl, by simp, by simpa using hfault⟩
    · refine ⟨before, rfl, ?_, ?_⟩ <;> simp [readFrom_of_failed hbefore]
  | case3 opens s event rest hnext found hopens =>
    obtain ⟨rfl, rfl⟩ := Prod.mk.inj (Option.some.inj hfailure)
    have hfault := ne_namelessDocumentType_of_openAfter hopens
    exact ⟨[], rfl, by simp, by simpa using hfault⟩
  | case4 opens s event rest hnext inner hopens _ ih =>
    obtain ⟨taken, rfl, htaken⟩ := exists_spells_of_nextEvent hnext
    obtain ⟨before, rfl, hevents, hfault⟩ := ih hfailure
    refine ⟨taken ++ before, by simp, ?_, ?_⟩
    · rw [readFrom_of_spells htaken hopens]
      exact congrArg (event :: ·) hevents
    · rw [readFrom_of_spells htaken hopens]
      exact hfault

/-- A document that fails at some byte position has a character boundary there, and what was written
    is the conversion of the text before it. That text is without fault, unless a document type
    declaration lacks its name: such a declaration is cut in the middle. -/
theorem convert_before_failure {input : Text} {position : Nat} {fault : Fault}
    (hmark : input.head? ≠ some '\ufeff')
    (hfailure : (convert input).failure = some (.malformed position fault)) :
    ∃ before after, input = before ++ after ∧ before.byteSize = position ∧
      (convert before).html = (convert input).html ∧
      ((convert before).failure = none ↔ fault ≠ .namelessDocumentType) := by
  have hinput : input.dropByteOrderMark = input := Text.dropByteOrderMark_of_head? hmark
  simp only [convert, hinput, Option.map_eq_some_iff] at hfailure
  obtain ⟨⟨found, remaining⟩, hread, hposition⟩ := hfailure
  obtain ⟨hbytes, rfl⟩ := Failure.malformed.inj hposition
  obtain ⟨before, hsource, hevents, hfault⟩ := readFrom_before_failure hread
  have hbefore : before.dropByteOrderMark = before := by
    apply Text.dropByteOrderMark_of_head?
    cases before <;> simp_all
  refine ⟨before, remaining, hsource, ?_, ?_, ?_⟩
  · rw [← hbytes, hsource, Text.byteSize_append, Nat.add_sub_cancel]
  · simp only [convert, hinput, hbefore]
    exact congrArg (fun events => (pieces events).flatMap Piece.write) hevents
  · simpa [convert, hbefore, read] using hfault

theorem convert_before_unclosed_reference :
    ∃ before after : Text,
      "<div1><head>a - b</head><code>c - d &lt;&oops <e/>".toList = before ++ after ∧
      before.byteSize = 40 ∧
      (convert before).html =
        (convert "<div1><head>a - b</head><code>c - d &lt;&oops <e/>".toList).html ∧
      ((convert before).failure = none ↔ Fault.unclosedReference ≠ .namelessDocumentType) :=
  convert_before_failure (by decide) (by decide +kernel)

end PostMarkup.Dialect
