import PostMarkup.Dialect.Reading
import PostMarkup.Proofs.Text.Cutting

namespace PostMarkup.Dialect

/-- The text is one event, whatever follows it. -/
def Spells (taken : Text) (event : Event) : Prop := ∀ s, nextEvent (taken ++ s) = .event event s

namespace DocumentType

/-- Which declaration begins at a place is seen before the declaration ends. -/
theorem ofMarkup_exchange (s t u : Text) :
    Region.ofMarkup (s ++ '>' :: t) = Region.ofMarkup (s ++ '>' :: u) := by
  have hsame : ∀ name ∈ quotedDeclarations, (Text.after? name (s ++ '>' :: t)).isSome =
      (Text.after? name (s ++ '>' :: u)).isSome := by
    intro name hname
    apply Text.after?_isSome_exchange
    revert name
    decide
  have hany : (quotedDeclarations.any fun name => (Text.after? name (s ++ '>' :: t)).isSome) =
      quotedDeclarations.any fun name => (Text.after? name (s ++ '>' :: u)).isSome := by
    rw [Bool.eq_iff_iff, List.any_eq_true, List.any_eq_true]
    exact exists_congr fun name => and_congr_right fun hname => by rw [hsame name hname]
  simp only [Region.ofMarkup, hany]

/-- The declaration closes after `body` and no sooner, whatever follows it. -/
def ClosesAfter (region : Region) (body : Text) : Prop :=
  ∀ s, closing? region (body ++ '>' :: s) = some ('>' :: s)

/-- A declaration closes at the same place whatever follows it. Where a region looks ahead, it looks
    for a lead that a closing `>` would break off. -/
theorem closing?_exchange {region : Region} {s closing : Text}
    (hclosing : closing? region s = some closing) :
    ∃ body rest, s = body ++ '>' :: rest ∧ closing = '>' :: rest ∧ ClosesAfter region body := by
  fun_induction closing? region s
  case case1 => contradiction
  case case2 | case21 =>
    obtain rfl := Option.some.inj hclosing
    exact ⟨[], _, rfl, rfl, fun t => by simp [closing?]⟩
  case case7 s ih =>
    obtain ⟨body, rest, rfl, rfl, hbody⟩ := ih hclosing
    exact ⟨'<' :: '!' :: '-' :: '-' :: body, rest, rfl, rfl, fun t => by simp [closing?, hbody t]⟩
  case case8 s ih =>
    obtain ⟨body, rest, rfl, rfl, hbody⟩ := ih hclosing
    exact ⟨'<' :: '?' :: body, rest, rfl, rfl, fun t => by simp [closing?, hbody t]⟩
  case case9 s hcomment hinstruction ih =>
    obtain ⟨body, rest, rfl, rfl, hbody⟩ := ih hclosing
    refine ⟨'<' :: body, rest, rfl, rfl, fun t => ?_⟩
    have hcomment : ∀ v, body ++ '>' :: t ≠ '!' :: '-' :: '-' :: v :=
      Text.ne_append_exchange ['!', '-', '-'] (by decide) (fun v => hcomment v rfl) t
    have hinstruction : ∀ v, body ++ '>' :: t ≠ '?' :: v :=
      Text.ne_append_exchange ['?'] (by decide) (fun v => hinstruction v rfl) t
    rw [ofMarkup_exchange body rest t] at hbody
    simp [closing?, hcomment, hinstruction, hbody t]
  case case11 c s _ _ hangle hbracket ih =>
    obtain ⟨body, rest, rfl, rfl, hbody⟩ := ih hclosing
    exact ⟨c :: body, rest, rfl, rfl, fun t => by simp [closing?, hangle, hbracket, hbody t]⟩
  case case12 s ih =>
    obtain ⟨body, rest, rfl, rfl, hbody⟩ := ih hclosing
    exact ⟨'-' :: '-' :: '>' :: body, rest, rfl, rfl, fun t => by simp [closing?, hbody t]⟩
  case case13 c s hend ih =>
    obtain ⟨body, rest, rfl, rfl, hbody⟩ := ih hclosing
    refine ⟨c :: body, rest, rfl, rfl, fun t => ?_⟩
    have hend : ∀ v, c = '-' → body ++ '>' :: t ≠ '-' :: '>' :: v := fun v hc =>
      Text.ne_append_exchange ['-', '>'] (by decide) (fun v => hend v hc) t v
    rw [List.cons_append, closing?, hbody t]
    exact hend
  case case14 s ih =>
    obtain ⟨body, rest, rfl, rfl, hbody⟩ := ih hclosing
    exact ⟨'?' :: '>' :: body, rest, rfl, rfl, fun t => by simp [closing?, hbody t]⟩
  case case15 c s hend ih =>
    obtain ⟨body, rest, rfl, rfl, hbody⟩ := ih hclosing
    refine ⟨c :: body, rest, rfl, rfl, fun t => ?_⟩
    have hend : ∀ v, c = '?' → body ++ '>' :: t ≠ '>' :: v := fun v hc =>
      Text.ne_append_exchange ['>'] (by decide) (fun v => hend v hc) t v
    rw [List.cons_append, closing?, hbody t]
    exact hend
  all_goals -- the other regions decide on one character
    next ih =>
    obtain ⟨body, rest, rfl, rfl, hbody⟩ := ih hclosing
    refine ⟨_ :: body, rest, rfl, rfl, fun t => ?_⟩
    have hrest := hbody t
    grind [closing?]

end DocumentType

/-- The text can stand inside a tag: no quote is left open, and every `>` is quoted. -/
def FitsTag (inside : Text) : Prop := ∀ s, tagInside none (inside ++ '>' :: s) = .ok (inside, s)

/-- A tag ends at the same place whatever follows it. -/
theorem tagInside_exchange {quote : Option Char} {s inside rest : Text}
    (hinside : tagInside quote s = .ok (inside, rest)) :
    s = inside ++ '>' :: rest ∧ ∀ t, tagInside quote (inside ++ '>' :: t) = .ok (inside, t) := by
  fun_induction tagInside quote s generalizing inside <;> grind [tagInside]

theorem spells_character {c : Char} (hangle : c ≠ '<') (hampersand : c ≠ '&') :
    Spells [c] (.character c) := by
  intro s
  rw [List.cons_append, nextEvent]
  · rfl
  · exact hampersand
  all_goals simp [hangle]

theorem spells_reference {name : Text} (hname : ∀ c ∈ name, c ≠ ';' ∧ c ≠ '&' ∧ c ≠ '<') :
    Spells ('&' :: name ++ [';']) (.reference name) := by
  intro s
  have hall : ∀ c ∈ name, (c ≠ ';' && c ≠ '&' && c ≠ '<') = true := by
    intro c hc
    simpa [and_assoc] using hname c hc
  have hstop : (';' ≠ ';' && ';' ≠ '&' && ';' ≠ '<') = false := by decide
  have hdrop := Text.dropWhile_append_stop hall hstop s
  have htake := Text.takeWhile_append_stop hall hstop s
  simp only [List.cons_append, List.append_assoc, List.nil_append, nextEvent, readReference, hdrop,
    htake]

theorem spells_startTag {inside : Text} (hinside : FitsTag inside)
    (hhead : ∀ c ∈ inside.head?, c ≠ '!' ∧ c ≠ '?' ∧ c ≠ '/') :
    Spells ('<' :: inside ++ ['>']) (startTag inside) := by
  intro s
  have hread : readTag ('<' :: (inside ++ '>' :: s)) (inside ++ '>' :: s) startTag =
      .event (startTag inside) s := by simp only [readTag, hinside s]
  cases inside with
  | nil => simpa [nextEvent] using hread
  | cons c inside =>
    obtain ⟨hbang, hquestion, hslash⟩ := hhead c rfl
    simpa [nextEvent, hbang, hquestion, hslash] using hread

theorem spells_endTag {inside : Text} (hinside : FitsTag inside) :
    Spells ('<' :: '/' :: inside ++ ['>']) (endTag inside) := by
  intro s
  simp only [List.cons_append, List.append_assoc, List.nil_append, nextEvent, readTag, hinside s]

theorem spells_comment {content : Text}
    (hcontent : ∀ s, Text.upTo? "-->".toList (content ++ "-->".toList ++ s) = some (content, s)) :
    Spells ("<!--".toList ++ content ++ "-->".toList)
      (.directive ("<!--".toList ++ content ++ "-->".toList)) := by
  intro s
  have hcut := hcontent s
  have hafter := Text.after?_append "--".toList (content ++ "-->".toList ++ s)
  simp at hcut hafter
  simp [nextEvent, readDeclaration, hafter, hcut]

theorem spells_instruction {content : Text} (hhead : content.head? ≠ some '>')
    (hcontent : ∀ s, Text.upTo? "?>".toList (content ++ "?>".toList ++ s) = some (content, s)) :
    Spells ('<' :: '?' :: (content ++ "?>".toList))
      (.directive ("<?".toList ++ content ++ "?>".toList)) := by
  intro s
  have hhead : (content ++ "?>".toList ++ s).head? ≠ some '>' := by
    cases content with
    | nil => simp
    | cons c content => simpa using hhead
  simp only [List.cons_append, nextEvent, readInstruction, if_neg hhead, hcontent]

theorem spells_literal {content : Text}
    (hcontent : ∀ s, Text.upTo? "]]>".toList (content ++ "]]>".toList ++ s) = some (content, s)) :
    Spells ("<![CDATA[".toList ++ content ++ "]]>".toList) (.literal content) := by
  intro s
  have hlead : "<![CDATA[".toList = '<' :: '!' :: "[CDATA[".toList := by simp
  have hbracket : "[CDATA[".toList = '[' :: "CDATA[".toList := by simp
  -- The literal stays folded where it is looked for: unifying it with its characters is slow.
  have hbody : (Text.after? "[CDATA[".toList
      ("[CDATA[".toList ++ (content ++ "]]>".toList ++ s))).bind (Text.upTo? "]]>".toList) =
        some (content, s) := by
    rw [Text.after?_append, Option.bind_some, hcontent]
  have hhead : "[CDATA[".toList ++ (content ++ "]]>".toList ++ s) =
      '[' :: ("CDATA[".toList ++ (content ++ "]]>".toList ++ s)) := by
    rw [hbracket, List.cons_append]
  rw [hhead] at hbody
  rw [List.append_assoc, List.append_assoc, ← List.append_assoc content, hlead, List.cons_append,
    List.cons_append, hhead]
  simp only [nextEvent, readDeclaration, hbody]

theorem exists_of_readTag {whole s rest : Text} {tag : Text → Event} {event : Event}
    (hread : readTag whole s tag = .event event rest) :
    ∃ inside, s = inside ++ '>' :: rest ∧ event = tag inside ∧ FitsTag inside := by
  simp only [readTag] at hread
  split at hread
  · next hinside =>
    obtain ⟨rfl, rfl⟩ := Step.event.inj hread
    obtain ⟨hsource, hexchange⟩ := tagInside_exchange hinside
    exact ⟨_, hsource, rfl, hexchange⟩
  · contradiction

theorem exists_spells_of_readReference {s rest : Text} {event : Event}
    (hread : readReference s = .event event rest) :
    ∃ taken, s = taken ++ rest ∧ Spells ('&' :: taken) event := by
  simp only [readReference] at hread
  split at hread
  · next hstop =>
    obtain ⟨rfl, rfl⟩ := Step.event.inj hread
    refine ⟨_ ++ [';'], ?_, spells_reference fun c hc => ?_⟩
    · rw [List.append_assoc, List.singleton_append, ← hstop]
      exact (List.takeWhile_append_dropWhile).symm
    · simpa [and_assoc] using Text.of_mem_takeWhile hc
  · contradiction

theorem exists_spells_of_readInstruction {s rest : Text} {event : Event}
    (hread : readInstruction s = .event event rest) :
    ∃ taken, s = taken ++ rest ∧ Spells ('<' :: '?' :: taken) event := by
  simp only [readInstruction] at hread
  split at hread
  · contradiction
  · next hhead =>
    split at hread
    · next content tail hcut =>
      obtain ⟨rfl, rfl⟩ := Step.event.inj hread
      have hsource := Text.append_of_upTo? hcut
      have hhead : content.head? ≠ some '>' := by
        cases content with
        | nil => simp
        | cons c content => simpa [hsource] using hhead
      exact ⟨content ++ "?>".toList, hsource, spells_instruction hhead (Text.upTo?_exchange hcut)⟩
    · contradiction

theorem exists_spells_of_readDocumentType {whole lead s rest : Text} {event : Event}
    (hlead : ∀ t, nextEvent (lead ++ t) = readDocumentType (lead ++ t) t)
    (hread : readDocumentType whole s = .event event rest) :
    ∃ taken, s = taken ++ rest ∧ Spells (lead ++ taken) event := by
  simp only [readDocumentType] at hread
  split at hread
  · contradiction
  · next closing hclosing =>
    obtain ⟨body, tail, rfl, rfl, hbody⟩ := DocumentType.closing?_exchange hclosing
    have hcut (t : Text) : (body ++ '>' :: t).take ((body ++ '>' :: t).length -
        ('>' :: t).length) = body := by simp
    rw [hcut] at hread
    refine ⟨body ++ ['>'], ?_, fun t => ?_⟩
    · split at hread
      · contradiction
      · obtain ⟨-, rfl⟩ := Step.event.inj hread
        simp
    · simp only [List.append_assoc, List.cons_append, List.nil_append, hlead, readDocumentType,
        hbody t, hcut]
      split at hread
      · contradiction
      · obtain ⟨rfl, -⟩ := Step.event.inj hread
        rfl

/-- The head of a document type declaration is recognised again before any other text. -/
theorem exists_nextEvent_eq_readDocumentType {c : Char} {tail body : Text}
    (hletter : c = 'D' ∨ c = 'd')
    (hafter : Text.afterAnyCase? "doctype".toList (c :: tail) = some body) :
    ∃ found, c :: tail = found ++ body ∧ ∀ t, nextEvent ('<' :: '!' :: found ++ t) =
      readDocumentType ('<' :: '!' :: found ++ t) t := by
  obtain ⟨found, hfound, hexchange⟩ := Text.exists_of_afterAnyCase? hafter
  refine ⟨found, hfound, fun t => ?_⟩
  obtain _ | ⟨d, found⟩ := found
  · exact absurd (hexchange []) (by decide)
  obtain ⟨rfl, -⟩ := List.cons.inj hfound
  have hhere := hexchange t
  simp only [List.cons_append] at hhere ⊢
  obtain rfl | rfl := hletter <;> simp only [nextEvent, readDeclaration, hhere] <;> rfl

theorem exists_spells_of_readDeclaration {s rest : Text} {event : Event}
    (hread : readDeclaration s = .event event rest) :
    ∃ taken, s = taken ++ rest ∧ Spells ('<' :: '!' :: taken) event := by
  simp only [readDeclaration] at hread
  split at hread
  · split at hread
    · next hbind =>
      obtain ⟨rfl, rfl⟩ := Step.event.inj hread
      obtain ⟨middle, hafter, hcut⟩ := Option.bind_eq_some_iff.1 hbind
      have hsource := Text.after?_eq_some_iff.1 hafter
      rw [Text.append_of_upTo? hcut] at hsource
      exact ⟨"--".toList ++ _ ++ "-->".toList, by simp [hsource],
        spells_comment (Text.upTo?_exchange hcut)⟩
    · contradiction
  · split at hread
    · next hbind =>
      obtain ⟨rfl, rfl⟩ := Step.event.inj hread
      obtain ⟨middle, hafter, hcut⟩ := Option.bind_eq_some_iff.1 hbind
      have hsource := Text.after?_eq_some_iff.1 hafter
      rw [Text.append_of_upTo? hcut] at hsource
      exact ⟨"[CDATA[".toList ++ _ ++ "]]>".toList, by simp [hsource],
        spells_literal (Text.upTo?_exchange hcut)⟩
    · contradiction
  · next c tail _ _ =>
    split at hread
    · next hletter =>
      split at hread
      · next body hafter =>
        obtain ⟨found, hfound, hlead⟩ :=
          exists_nextEvent_eq_readDocumentType (by simpa using hletter) hafter
        obtain ⟨taken, rfl, htaken⟩ := exists_spells_of_readDocumentType hlead hread
        exact ⟨found ++ taken, by simp [hfound], by simpa using htaken⟩
      · contradiction
    · contradiction
  · contradiction

/-- The length lemmas of the reader say how much is taken; this one says that nothing else counts. -/
theorem exists_spells_of_nextEvent {s rest : Text} {event : Event}
    (hnext : nextEvent s = .event event rest) : ∃ taken, s = taken ++ rest ∧ Spells taken event := by
  unfold nextEvent at hnext
  split at hnext
  · contradiction
  · obtain ⟨taken, rfl, htaken⟩ := exists_spells_of_readReference hnext
    exact ⟨'&' :: taken, rfl, htaken⟩
  · obtain ⟨taken, rfl, htaken⟩ := exists_spells_of_readDeclaration hnext
    exact ⟨'<' :: '!' :: taken, rfl, htaken⟩
  · obtain ⟨taken, rfl, htaken⟩ := exists_spells_of_readInstruction hnext
    exact ⟨'<' :: '?' :: taken, rfl, htaken⟩
  · obtain ⟨inside, rfl, rfl, hfits⟩ := exists_of_readTag hnext
    exact ⟨'<' :: '/' :: inside ++ ['>'], by simp, spells_endTag hfits⟩
  · next hbang hquestion hslash =>
    obtain ⟨inside, rfl, rfl, hfits⟩ := exists_of_readTag hnext
    refine ⟨'<' :: inside ++ ['>'], by simp, spells_startTag hfits fun c hc => ?_⟩
    obtain ⟨tail, rfl⟩ := List.head?_eq_some_iff.1 hc
    refine ⟨?_, ?_, ?_⟩ <;> rintro rfl <;> simp at hbang hquestion hslash
  · next hampersand _ _ _ hangle =>
    obtain ⟨rfl, rfl⟩ := Step.event.inj hnext
    exact ⟨[_], rfl, spells_character hangle hampersand⟩

end PostMarkup.Dialect
