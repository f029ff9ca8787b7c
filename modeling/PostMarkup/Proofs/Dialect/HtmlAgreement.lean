import PostMarkup.Proofs.Dialect.CommonMarkup
import PostMarkup.Proofs.Html.Rewriting
import PostMarkup.Proofs.Typography.Agreement

namespace PostMarkup.Dialect

open Html (stored tokens typographStored)

/-- The token that an event of common markup is read as in HTML. -/
def Event.token : Event → Html.Token
  | .character c => .text [c]
  | .startTag name attributes => .startTag name attributes false
  | .endTag name => .endTag name [] false
  | _ => .parseError

theorem IsCommonCharacter.ne {c d : Char} (hc : IsCommonCharacter c)
    (hd : d ∈ "&<>\x00\r".toList) : c ≠ d := by
  rintro rfl
  exact hc hd

/-- No character of a common attribute has to be escaped. -/
theorem flatMap_writeAttribute_of_isCommon {attributes : List Attribute}
    (hattributes : ∀ entry ∈ attributes, IsCommonAttribute entry) :
    attributes.flatMap Html.writeAttribute = attributes.flatMap Attribute.write := by
  refine List.flatMap_congr fun entry hentry => ?_
  have hvalue : escapeValue entry.value = entry.value := by
    refine flatMap_eq_self fun c hc => ?_
    have hplain := (hattributes entry hentry).2 c hc
    split
    case h_6 => rfl
    all_goals exact absurd (by decide) hplain
  rw [Html.writeAttribute, hvalue]

theorem wellFormedTag_of_isCommon {name : Text} {attributes : List Attribute}
    (h : (Event.startTag name attributes).IsCommon) : Html.WellFormedTag name attributes := by
  obtain ⟨hname, hattributes, hkeys⟩ := h
  refine ⟨hname.1.isTagName, fun entry hentry => (hattributes entry hentry).1.isKey,
    fun entry hentry hmem => ?_, hkeys⟩
  exact (hattributes entry hentry).2 _ hmem (by decide)

theorem tokens_source_append {event : Event} (h : event.IsCommon) (s : Text) :
    tokens (event.source ++ s) = event.token :: tokens s := by
  cases event with
  | character c =>
    have hc : IsCommonCharacter c := h
    have hangle : c ≠ '<' := hc.ne (by decide)
    have hampersand : c ≠ '&' := hc.ne (by decide)
    have hnull : c ≠ '\x00' := hc.ne (by decide)
    rw [Event.source, List.singleton_append, tokens, if_neg hnull]
    · rfl
    · exact hangle
    · exact hampersand
  | startTag name attributes =>
    have hwrite := flatMap_writeAttribute_of_isCommon h.2.1
    have hsource : (Event.startTag name attributes).source =
        (Html.Piece.startTag name attributes false).write := by
      simp [Event.source, Piece.write, Html.Piece.write, hwrite]
    have hopens : (Html.Token.startTag name attributes false).opens? = none := by
      simp [Html.Token.opens?, h.1.contentModel?_eq_none]
    rw [hsource, Html.tokens_startTag (wellFormedTag_of_isCommon h), hopens]
    rfl
  | endTag name =>
    have hname : IsCommonName name := h
    exact Html.tokens_endTag hname.1.isTagName s
  | _ => contradiction

theorem tokens_flatMap_source {events : List Event} (hevents : ∀ event ∈ events, event.IsCommon) :
    tokens (events.flatMap Event.source) = events.map Event.token := by
  induction events with
  | nil => exact Html.tokens_nil
  | cons event events ih =>
    obtain ⟨hevent, hlater⟩ := List.forall_mem_cons.1 hevents
    rw [List.flatMap_cons, tokens_source_append hevent, ih hlater, List.map_cons]

theorem return_not_mem_source {event : Event} (h : event.IsCommon) : '\r' ∉ event.source := by
  cases event with
  | character c =>
    have hc : IsCommonCharacter c := h
    simpa [Event.source] using (hc.ne (by decide : '\r' ∈ "&<>\x00\r".toList)).symm
  | startTag name attributes =>
    obtain ⟨hname, hattributes, -⟩ := h
    have hletters : '\r' ∉ name := fun hmem => (hname.1.plain _ hmem).2 rfl
    have hwritten : ∀ entry ∈ attributes, '\r' ∉ entry.write := by
      intro entry hentry
      obtain ⟨hkey, hvalue⟩ := hattributes entry hentry
      have hkey : '\r' ∉ entry.key := fun hmem => (hkey.plain _ hmem).2 rfl
      have hvalue : '\r' ∉ entry.value := fun hmem => hvalue _ hmem (by decide)
      simp [Attribute.write, hkey, hvalue]
    simpa [Event.source, Piece.write, hletters] using hwritten
  | endTag name =>
    have hname : IsCommonName name := h
    have hletters : '\r' ∉ name := fun hmem => (hname.1.plain _ hmem).2 rfl
    simpa [Event.source, Piece.write] using hletters
  | _ => contradiction

theorem isCommonCharacter_of_mem_segments {events : List Event}
    (hevents : ∀ event ∈ events, event.IsCommon) (zone : SkipZone) :
    ∀ c ∈ (segments zone events).1, IsCommonCharacter c := by
  induction events with
  | nil => simp [segments]
  | cons event events ih =>
    obtain ⟨hevent, hlater⟩ := List.forall_mem_cons.1 hevents
    cases hmarkup : event.isMarkup with
    | true => simp [segments_cons_of_isMarkup hmarkup]
    | false =>
      obtain ⟨c, rfl, hc⟩ := hevent.exists_character hmarkup
      exact List.forall_mem_cons.2 ⟨hc, ih hlater⟩

theorem escapeAngles_of_forall_isCommonCharacter {s : Text} (hs : ∀ c ∈ s, IsCommonCharacter c) :
    escapeAngles s = s := by
  refine flatMap_eq_self fun c hc => ?_
  have hcommon := hs c hc
  split
  case h_3 => rfl
  all_goals exact absurd (by decide) hcommon

/-- Text of common characters is written as it stands but for the rules. -/
theorem writeText_of_isCommonCharacter {s : Text} (hs : ∀ c ∈ s, IsCommonCharacter c)
    (place : Html.Place SkipZone) :
    stored.writeText place s =
      if place.policyState.isActive then s else Typography.RuleSet.html.apply s := by
  simp only [Html.Style.writeText, stored, TextPolicy.skipping, Bool.false_and,
    escapeText_of_forall_isCommonCharacter hs, escapeAngles_of_forall_isCommonCharacter hs]
  cases place.policyState.isActive <;> rfl

/-- Common tags are written back as they stand. -/
theorem exists_split_of_isCommon {event : Event} (h : event.IsCommon)
    (hmarkup : event.isMarkup = true) (place : Html.Place SkipZone) :
    ∃ (piece : Html.Piece) (next : Html.Place SkipZone), piece.write = event.source ∧
      next.policyState = zoneAfter place.policyState event ∧
      ∀ tokens, stored.split place (event.token :: tokens) =
        ([], piece :: (stored.textPieces next (stored.split next tokens).1 ++
          (stored.split next tokens).2)) := by
  cases event with
  | startTag name attributes =>
    have hwrite := flatMap_writeAttribute_of_isCommon h.2.1
    refine ⟨.startTag name attributes false, stored.afterStart place name false, ?_, ?_,
      fun tokens => rfl⟩
    · simp [Event.source, Piece.write, Html.Piece.write, hwrite]
    · exact h.1.opened_eq (by decide : SkipSet.code ⊆ SkipSet.html) (by decide) place.policyState
  | endTag name => exact ⟨.endTag name, stored.afterEnd place name, rfl, rfl, fun tokens => rfl⟩
  | _ => contradiction

/-- The tokens of common markup are written back segment by segment. The induction keeps both readings
    at the same zone. -/
theorem split_tokens_eq_segments {events : List Event}
    (hevents : ∀ event ∈ events, event.IsCommon) (place : Html.Place SkipZone) :
    (stored.split place (events.map Event.token)).1 = (segments place.policyState events).1 ∧
      (stored.split place (events.map Event.token)).2.flatMap Html.Piece.write =
        (segments place.policyState events).2.flatMap
          (Segment.write Typography.RuleSet.html.apply) := by
  induction events generalizing place with
  | nil => exact ⟨rfl, rfl⟩
  | cons event events ih =>
    obtain ⟨hevent, hlater⟩ := List.forall_mem_cons.1 hevents
    cases hmarkup : event.isMarkup with
    | true =>
      obtain ⟨piece, next, hwrite, hzone, hsplit⟩ := exists_split_of_isCommon hevent hmarkup place
      obtain ⟨hlead, hwritten⟩ := ih hlater next
      have hcommon := isCommonCharacter_of_mem_segments hlater next.policyState
      have htext (run : Text) : (stored.textPieces next run).flatMap Html.Piece.write =
          stored.writeText next run := Html.Style.flatMap_write_textPieces rfl next run
      rw [List.map_cons, hsplit, segments_cons_of_isMarkup hmarkup, ← hzone]
      refine ⟨rfl, ?_⟩
      simp only [List.flatMap_cons, List.flatMap_append, htext, hlead, hwritten, hwrite,
        writeText_of_isCommonCharacter hcommon, Segment.write, List.append_assoc]
    | false =>
      obtain ⟨c, rfl, -⟩ := hevent.exists_character hmarkup
      obtain ⟨hlead, hwritten⟩ := ih hlater place
      exact ⟨congrArg (c :: ·) hlead, hwritten⟩

namespace Content

/-- As HTML, common markup comes out with the texts outside code typographed too. -/
theorem typographStored_eq_typographed {content : Content} (h : content.IsCommon)
    (hmark : content.source.head? ≠ some '\ufeff') :
    typographStored content.source = content.typographed Typography.RuleSet.html.apply := by
  have hevents := isCommon_events h
  have hreturn : '\r' ∉ content.source := by
    rw [source_eq_flatMap h, List.mem_flatMap]
    rintro ⟨event, hevent, hmem⟩
    exact return_not_mem_source (hevents event hevent) hmem
  have htokens : Html.tokenize content.source = content.events.map Event.token := by
    rw [Html.tokenize, Text.dropByteOrderMark_of_head? hmark, normaliseLineEnds_of_not_mem hreturn,
      source_eq_flatMap h, tokens_flatMap_source hevents]
  obtain ⟨hlead, hwritten⟩ := split_tokens_eq_segments hevents stored.start
  rw [typographStored, htokens, Html.Style.write, Html.Style.pieces, List.flatMap_append,
    Html.Style.flatMap_write_textPieces rfl, hlead, hwritten,
    writeText_of_isCommonCharacter (isCommonCharacter_of_mem_segments hevents _)]
  rfl

/-- Both languages write common markup alike if the texts outside code are undisputed, and leave it
    alone if the dialect has nothing to change in them. -/
theorem convert_eq_typographStored {content : Content} (hcontent : content.IsCommon)
    (hmark : content.source.head? ≠ some '\ufeff')
    (htexts : ∀ s ∈ content.exposedTexts, Typography.Undisputed s) :
    (convert content.source).failure = none ∧
      (convert content.source).html = typographStored content.source ∧
      ((∀ s ∈ content.exposedTexts, ∀ rule ∈ Typography.RuleSet.dialect, rule.IsSilent none s) →
        (convert content.source).html = content.source ∧
          typographStored content.source = content.source) := by
  have hagree : content.typographed Typography.RuleSet.html.apply =
      content.typographed Typography.RuleSet.dialect.apply :=
    typographed_congr fun s hs => Typography.html_apply_eq_dialect_apply (htexts s hs)
  rw [convert_eq_typographed hcontent hmark, typographStored_eq_typographed hcontent hmark, hagree]
  refine ⟨rfl, rfl, fun hsilent => ?_⟩
  have hkept : content.typographed Typography.RuleSet.dialect.apply = content.source := by
    rw [← typographed_id hcontent]
    exact typographed_congr fun s hs => Typography.RuleSet.apply_of_isSilent (hsilent s hs)
  exact ⟨hkept, hkept⟩

theorem convert_eq_typographStored_around_code :
    let inside := text "- a -- b... x+-y 1/22 5 -6 ".toList
      (element "pre".toList [] false
        (text "c- d 1-2 1/2".toList
          (element "pre".toList [] false (text "e".toList nothing) (text " -- f..".toList nothing)))
        (text "g".toList nothing))
    let content := element "p".toList [⟨⟨"class".toList, "lead".toList⟩, '"'⟩] false inside nothing
    let settled := element "p".toList [] false
      (text "a b".toList (element "code".toList [] false (text "c - d".toList nothing) nothing))
      nothing
    content.IsCommon ∧ content.source.head? ≠ some '\ufeff' ∧
      (∀ s ∈ content.exposedTexts, Typography.Undisputed s) ∧
      (convert content.source).failure = none ∧
      (convert content.source).html = typographStored content.source ∧
      typographStored content.source =
        ("<p class=\"lead\">&mdash; a&nbsp;&mdash; b&hellip; x&plusmn;y 1/22 5 -6 " ++
          "<pre>c- d 1-2 1/2<pre>e</pre>&nbsp;&mdash; f&hellip;</pre>g</p>").toList ∧
      settled.IsCommon ∧ settled.source.head? ≠ some '\ufeff' ∧
      (∀ s ∈ settled.exposedTexts, Typography.Undisputed s ∧
        ∀ rule ∈ Typography.RuleSet.dialect, rule.IsSilent none s) ∧
      (convert settled.source).html = settled.source ∧
      typographStored settled.source = settled.source := by
  intro inside content settled
  have hcontent : content.IsCommon := by decide
  have hmark : content.source.head? ≠ some '\ufeff' := by decide
  have htexts : ∀ s ∈ content.exposedTexts, Typography.Undisputed s := by decide
  obtain ⟨hfailure, hagree, -⟩ := convert_eq_typographStored hcontent hmark htexts
  have hsettled : settled.IsCommon := by decide
  have hmarkSettled : settled.source.head? ≠ some '\ufeff' := by decide
  have hsilent : ∀ s ∈ settled.exposedTexts, Typography.Undisputed s ∧
      ∀ rule ∈ Typography.RuleSet.dialect, rule.IsSilent none s := by decide
  obtain ⟨-, -, hkept⟩ := convert_eq_typographStored hsettled hmarkSettled
    fun s hs => (hsilent s hs).1
  obtain ⟨hconverted, hstored⟩ := hkept fun s hs => (hsilent s hs).2
  refine ⟨hcontent, hmark, htexts, hfailure, hagree, ?_, hsettled, hmarkSettled, hsilent,
    hconverted, hstored⟩
  rw [← hagree]
  decide +kernel

end Content

end PostMarkup.Dialect
