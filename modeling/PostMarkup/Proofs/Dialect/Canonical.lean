import PostMarkup.Proofs.Dialect.Rewritten

namespace PostMarkup.Dialect

theorem isFrom_escapedEvent {c : Char} {s : Text} (hc : c ∈ s) : (escapedEvent c).IsFrom s := by
  unfold escapedEvent
  split
  · exact (by decide : '<' ∉ "lt".toList ∧ '&' ∉ "lt".toList)
  · exact (by decide : '<' ∉ "gt".toList ∧ '&' ∉ "gt".toList)
  · exact (by decide : '<' ∉ "amp".toList ∧ '&' ∉ "amp".toList)
  · next hless _ hampersand => exact ⟨hc, hless, hampersand⟩

/-- Writing brings in no character data. -/
theorem Event.IsFrom.of_mem_rewritten {event : Event} {s : Text} (h : event.IsFrom s)
    (place : Place) : ∀ other ∈ event.rewritten place, other.IsFrom s := by
  cases event with
  | character c =>
    simp only [Event.rewritten, List.forall_mem_singleton]
    split
    · exact isFrom_escapedEvent h.1
    · exact h
  | literal content =>
    simp only [Event.rewritten, List.forall_mem_map]
    exact fun c hc => isFrom_escapedEvent (h hc)
  | _ => simp_all [Event.rewritten, Event.IsFrom]

theorem isFrom_of_mem_rewritten {events : List Event} {s : Text}
    (hevents : ∀ event ∈ events, event.IsFrom s) (place : Place) :
    ∀ other ∈ rewritten place events, other.IsFrom s := by
  induction events generalizing place with
  | nil => exact fun other hother => absurd hother List.not_mem_nil
  | cons event events ih =>
    obtain ⟨hevent, hlater⟩ := List.forall_mem_cons.1 hevents
    exact List.forall_mem_append.2 ⟨hevent.of_mem_rewritten place, ih hlater _⟩

/-- A byte order mark at the head of a text is read as a character. -/
theorem head?_ne_of_isFrom {s t : Text} (hmark : '\ufeff' ∉ s)
    (hevents : ∀ event ∈ (read t).events, event.IsFrom s) : t.head? ≠ some '\ufeff' := by
  intro hhead
  obtain ⟨rest, rfl⟩ := List.head?_eq_some_iff.1 hhead
  have hspells : Spells ['\ufeff'] (.character '\ufeff') := spells_character (by decide) (by decide)
  have hread : read ('\ufeff' :: rest) =
      (readFrom [] rest).precededBy [.character '\ufeff'] := readFrom_of_spells hspells rfl rest
  rw [hread] at hevents
  exact hmark (hevents (.character '\ufeff') List.mem_cons_self).1

theorem head?_append_ne {c : Char} {s t : Text} (hs : s.head? ≠ some c) (ht : t.head? ≠ some c) :
    (s ++ t).head? ≠ some c := by
  cases s with
  | nil => exact ht
  | cons d s => exact hs

/-- Reading the output back shows that it begins with no byte order mark. -/
theorem head?_written_ne {s : Text} (hmark : '\ufeff' ∉ s) {events : List Event}
    (hevents : ∀ event ∈ events, event.IsFrom s) {inner : List Text}
    (hread : ∀ t, read (written {} events ++ t) =
      (readFrom inner t).precededBy (rewritten {} events)) :
    (written {} events).head? ≠ some '\ufeff' := by
  apply head?_ne_of_isFrom hmark
  have hwhole := hread []
  rw [List.append_nil, readFrom_nil] at hwhole
  rw [hwhole]
  simpa [Reading.precededBy] using isFrom_of_mem_rewritten hevents {}

theorem convert_eq_written {s : Text} (hhead : s.head? ≠ some '\ufeff')
    (hsettled : AreSettled (exposedRun {} (read s).events)) :
    convert s = ⟨written {} (read s).events, failureFrom [] s⟩ := by
  have hhtml : (convert s).html = written {} (read s).events := by
    simp only [convert, Text.dropByteOrderMark_of_head? hhead, pieces, List.flatMap_append,
      flatMap_write_textPieces_of_settled hsettled, written]
  have hfailure : (convert s).failure = failureFrom [] s := by
    rw [failure_convert, Text.dropByteOrderMark_of_head? hhead]
  rw [← hhtml, ← hfailure]

section

variable {event : Event} {name : Text} (hopening : .opening name ∈ event.brackets)

include hopening

theorem isMarkup_of_opening : event.isMarkup = true := by
  cases event <;> first | rfl | simp [Event.brackets] at hopening

theorem exists_openAfter_of_opening (opens : List Text) :
    ∃ inner, openAfter opens event = .ok inner := by
  cases event <;> first | exact ⟨_, rfl⟩ | simp [Event.brackets] at hopening

/-- An element that means nothing to the dialect is written from its start tag on. -/
theorem exists_written_eq_startTag (hname : IsNeutralName name) (place : Place)
    (events : List Event) :
    ∃ t, written place (event :: events) =
      (Piece.startTag name (event.attributes.map requote)).write ++ t := by
  rw [written, split_cons_of_isMarkup (isMarkup_of_opening hopening)]
  cases event with
  | startTag source attributes | emptyTag source attributes =>
    obtain rfl : name = source := by simpa [Event.brackets] using hopening
    rw [markup, hname.startPieces_eq]
    exact ⟨_, rfl⟩
  | _ => simp [Event.brackets] at hopening

end

theorem exists_opening_of_mem_attributes {event : Event} {entry : Attribute}
    (hentry : entry ∈ event.attributes) : ∃ name, .opening name ∈ event.brackets := by
  cases event with
  | startTag name attributes | emptyTag name attributes => exact ⟨name, by simp [Event.brackets]⟩
  | _ => simp [Event.attributes] at hentry

theorem exists_first {α : Type} (p : α → Prop) {l : List α} (h : ∃ x ∈ l, p x) :
    ∃ before x after, l = before ++ x :: after ∧ p x ∧ ∀ y ∈ before, ¬ p y := by
  classical
  cases hfound : l.find? fun x => p x with
  | none =>
    obtain ⟨x, hx, hp⟩ := h
    exact absurd hp (by simpa using List.find?_eq_none.1 hfound x hx)
  | some x =>
    obtain ⟨hx, before, after, rfl, hbefore⟩ := List.find?_eq_some_iff_append.1 hfound
    exact ⟨before, x, after, rfl, by simpa using hx, by simpa using hbefore⟩

/-- The part of a key before a `>` has no separators, and no equals sign but at its head. -/
theorem IsFoundKey.of_append {cut rest : Text} (h : IsFoundKey (cut ++ rest)) :
    (∀ c ∈ cut, isSeparator c = false) ∧ '=' ∉ cut.tail := by
  refine ⟨fun c hc => h.separators c (List.mem_append_left _ hc), fun hmem => h.equals ?_⟩
  cases cut with
  | nil => contradiction
  | cons c cut => exact List.mem_append_left _ hmem

/-- A start tag is written up to the `>` of a key, and so it ends there. -/
theorem exists_write_startTag_eq (name : Text) (before after : List Attribute) {entry : Attribute}
    {cut rest : Text} (hkey : entry.key = cut ++ '>' :: rest) :
    ∃ t, (Piece.startTag name ((before ++ entry :: after).map requote)).write =
      '<' :: (tagText name (requoted before) ++ ' ' :: cut) ++ ['>'] ++ t := by
  have hquotes : ∀ entry ∈ requoted before, entry.quote = '"' := by simp [requoted]
  rw [tagText, flatMap_source_attributes hquotes, map_toAttribute_requoted]
  refine ⟨rest ++ '=' :: '"' :: (requote entry).value ++ '"' ::
    (after.map requote).flatMap Attribute.write ++ ['>'], ?_⟩
  have hrequoted : (requote entry).key = cut ++ '>' :: rest := hkey
  simp [Piece.write, Attribute.write, hrequoted]

/-- A start tag that ends within a key is read with the attributes before that key. -/
theorem exists_spells_cutTag {name : Text} (hname : IsPlainName name)
    {attributes : List Attribute} (hattributes : ∀ entry ∈ attributes, IsWritableKey entry.key)
    (hkeys : (attributes.map Attribute.key).Nodup) {cut : Text}
    (hcut : ∀ c ∈ cut, c ≠ '>' ∧ DocumentType.isQuote c = false)
    (hseparators : ∀ c ∈ cut, isSeparator c = false) (hequals : '=' ∉ cut.tail) :
    ∃ event, Spells ('<' :: (tagText name (requoted attributes) ++ ' ' :: cut) ++ ['>']) event ∧
      .opening name ∈ event.brackets ∧ event.attributes = attributes.map requote := by
  have hreadable := readable_requoted hattributes
  have hfits : FitsTag (' ' :: cut) := by
    have hplain : ∀ c ∈ ' ' :: cut, c ≠ '>' ∧ DocumentType.isQuote c = false :=
      List.forall_mem_cons.2 ⟨by decide, hcut⟩
    simpa using fitsTag_nil.plain_append hplain
  have hhead : ∀ c ∈ (tagText name (requoted attributes) ++ ' ' :: cut).head?,
      c ≠ '!' ∧ c ≠ '?' ∧ c ≠ '/' := by
    rw [tagText, List.append_assoc]
    exact head?_append_of_isPlainName hname _
  have htag := startTag_bareKey hname hreadable (nodup_key_requoted hkeys) hseparators hequals
  rw [map_toAttribute_requoted] at htag
  refine ⟨_, spells_startTag (fitsTag_tagText hname hreadable hfits) hhead, ?_⟩
  obtain htag | htag := htag <;> simp [htag, Event.brackets, Event.attributes]

/-- A tag with a `>` in a key is written so that another tag is read, and that one is written in
    another way from the blank before the key on. -/
theorem exists_misread {event : Event} (hread : event.IsRead) (hneutral : event.IsNeutral)
    (hkeys : ¬ event.HoldsKeys) :
    ∃ lead cut other name, .opening name ∈ other.brackets ∧ event.isMarkup = true ∧
      Spells ('<' :: lead ++ ' ' :: cut) other ∧ ∀ place events,
        (∃ t, written place (event :: events) = '<' :: lead ++ ' ' :: cut ++ t) ∧
        ∃ t, written place (other :: events) = '<' :: lead ++ '>' :: t := by
  have hkeyed : ∃ entry ∈ event.attributes, '>' ∈ entry.key := by
    simpa [Event.HoldsKeys] using hkeys
  obtain ⟨earlier, entry, further, hattributes, hangle, hearlier⟩ := exists_first _ hkeyed
  obtain ⟨cut, rest, hkey, hcut⟩ := List.eq_append_cons_of_mem hangle
  have hentry : entry ∈ event.attributes := by simp [hattributes]
  obtain ⟨name, hopening⟩ := exists_opening_of_mem_attributes hentry
  have hname : IsNeutralName name := hneutral.names _ hopening
  have hmem : ∀ other ∈ earlier, other ∈ event.attributes := fun other hother => by
    simp [hattributes, hother]
  have hdistinct : (earlier.map Attribute.key).Nodup := by
    have hall := hread.nodup_key
    rw [hattributes, List.map_append] at hall
    exact (List.nodup_append.1 hall).1
  obtain ⟨hseparators, hequals⟩ := (hkey ▸ hread.isFoundKey entry hentry).of_append
  have hwritable : ∀ other ∈ earlier, IsWritableKey other.key := fun other hother =>
    (hread.isFoundKey other (hmem other hother)).isWritable
      (hneutral.keys other (hmem other hother)) (hearlier other hother)
  have hplain : ∀ c ∈ cut, c ≠ '>' ∧ DocumentType.isQuote c = false := fun c hc =>
    ⟨fun heq => hcut (heq ▸ hc), hneutral.keys entry hentry c (by simp [hkey, hc])⟩
  obtain ⟨other, hspells, hother, hotherAttributes⟩ :=
    exists_spells_cutTag hname.1 hwritable hdistinct hplain hseparators hequals
  refine ⟨tagText name (requoted earlier), cut ++ ['>'], other, name, hother,
    isMarkup_of_opening hopening, by simpa using hspells, fun place events => ⟨?_, ?_⟩⟩
  · obtain ⟨t, ht⟩ := exists_written_eq_startTag hopening hname place events
    obtain ⟨u, hu⟩ := exists_write_startTag_eq name earlier further hkey
    rw [ht, hattributes, hu]
    exact ⟨u ++ t, by simp⟩
  · obtain ⟨t, ht⟩ := exists_written_eq_startTag hother hname place events
    rw [hotherAttributes, map_requote_map_requote, write_startTag_requoted] at ht
    exact ⟨t, by simp [ht]⟩

section

variable {s : Text} (haccepted : (read s).failure = none)
  (hneutral : ∀ event ∈ (read s).events, event.IsNeutral)

include haccepted hneutral

/-- The output of a beginning of the document is read back before anything else. -/
theorem exists_read_written_append {before after : List Event}
    (hevents : (read s).events = before ++ after) (hkeys : ∀ event ∈ before, event.HoldsKeys)
    (hsettled : AreSettled (laterRuns {} before)) :
    ∃ opens, ∀ t, read (written {} before ++ t) =
      (readFrom opens t).precededBy (rewritten {} before) := by
  obtain ⟨inner, hopens, -⟩ := exists_readFrom_append haccepted
  rw [← read, hevents, List.foldlM_append] at hopens
  have hmem : ∀ event ∈ before, event ∈ (read s).events := fun event hevent =>
    hevents ▸ List.mem_append_left _ hevent
  obtain ⟨middle, hmiddle, -⟩ := exists_of_bind_openAfter hopens
  have hbefore : ∀ event ∈ before, event.IsRead ∧ event.IsNeutral ∧ event.HoldsKeys :=
    fun event hevent => ⟨isRead_of_mem_readFrom [] s event (hmem event hevent),
      hneutral event (hmem event hevent), hkeys event hevent⟩
  exact ⟨middle, readFrom_written_append hmiddle hbefore hsettled⟩

variable (hmark : '\ufeff' ∉ s) (hsettled : AreSettled (exposedRuns (read s).events))

include hmark hsettled

theorem convert_html_of_holdsKeys (hkeys : ∀ event ∈ (read s).events, event.HoldsKeys) :
    convert (convert s).html = ⟨(convert s).html, none⟩ := by
  have hhead : s.head? ≠ some '\ufeff' := fun hhead => hmark (List.mem_of_mem_head? hhead)
  obtain ⟨hfirst, hlater⟩ := List.forall_mem_append.1 hsettled
  obtain ⟨opens, hwritten⟩ := exists_read_written_append haccepted hneutral
    (List.append_nil _).symm hkeys hlater
  have hread : read (written {} (read s).events) = ⟨rewritten {} (read s).events, none⟩ := by
    simpa [Reading.precededBy] using hwritten []
  have hrun : exposedRun {} (rewritten {} (read s).events) = exposedRun {} (read s).events := by
    simpa using exposedRun_rewritten_append {} (read s).events []
  have hsame : written {} (rewritten {} (read s).events) = written {} (read s).events := by
    simpa using written_rewritten_append {} (read s).events []
  have hhtml : (convert s).html = written {} (read s).events := by
    rw [convert_eq_written hhead hfirst]
  have hagain : AreSettled (exposedRun {} (read (written {} (read s).events)).events) := by
    rw [hread, hrun]
    exact hfirst
  have hfrom : ∀ event ∈ (read s).events, event.IsFrom s := isFrom_of_mem_readFrom
  have hwrittenHead := head?_written_ne hmark hfrom hwritten
  rw [hhtml, convert_eq_written hwrittenHead hagain, failureFrom, ← read, hread, hsame]
  rfl

/-- Up to the first tag with such a key the output is read back as the source. There another tag is
    read, and the two outputs part. -/
theorem html_convert_html_ne (hkeys : ∃ event ∈ (read s).events, ¬ event.HoldsKeys) :
    (convert (convert s).html).html ≠ (convert s).html := by
  have hhead : s.head? ≠ some '\ufeff' := fun hhead => hmark (List.mem_of_mem_head? hhead)
  obtain ⟨hfirst, hlater⟩ := List.forall_mem_append.1 hsettled
  obtain ⟨before, event, after, hevents, hevent, hbefore⟩ := exists_first _ hkeys
  simp only [not_not] at hbefore
  have hmem : event ∈ (read s).events := by simp [hevents]
  obtain ⟨lead, cut, other, name, hopening, hmarkup, hspells, hwrite⟩ :=
    exists_misread (isRead_of_mem_readFrom [] s event hmem) (hneutral event hmem) hevent
  rw [hevents] at hfirst hlater
  have hsettledBefore : AreSettled (laterRuns {} before) := fun run hrun =>
    hlater run (laterRuns_subset_append {} hmarkup before after hrun)
  obtain ⟨opens, hwritten⟩ := exists_read_written_append haccepted hneutral hevents hbefore
    hsettledBefore
  obtain ⟨inner, hopens⟩ := exists_openAfter_of_opening hopening opens
  obtain ⟨t, ht⟩ := (hwrite (placeAfter {} (before.flatMap Event.brackets)) after).1
  obtain ⟨u, hu⟩ := (hwrite (placeAfter {} (before.flatMap Event.brackets))
    (readFrom inner t).events).2
  have hhtml : (convert s).html = written {} before ++ ('<' :: lead ++ ' ' :: cut ++ t) := by
    rw [convert_eq_written hhead (by rwa [hevents]), hevents, written_append hsettledBefore hmarkup,
      ht]
  have hread : (read (convert s).html).events =
      rewritten {} before ++ other :: (readFrom inner t).events := by
    rw [hhtml, hwritten, readFrom_of_spells hspells hopens]
    rfl
  have hsource : ∀ event ∈ (read s).events, event.IsFrom s := isFrom_of_mem_readFrom
  have hhtmlHead : (convert s).html.head? ≠ some '\ufeff' := by
    have hwrittenHead := head?_written_ne hmark
      (fun event hevent => hsource event (by simp [hevents, hevent])) hwritten
    rw [hhtml]
    exact head?_append_ne hwrittenHead (by simp)
  have hother := isMarkup_of_opening hopening
  have hagain : (convert (convert s).html).html =
      written {} before ++ ('<' :: lead ++ '>' :: u) := by
    rw [convert_eq_written hhtmlHead, hread, written_rewritten_append,
      written_append hsettledBefore hother, hu]
    rw [hread, exposedRun_rewritten_append, exposedRun_append _ hother]
    rwa [exposedRun_append _ hmarkup] at hfirst
  rw [hagain, hhtml]
  simp

end

/-- An accepted document with neutral names, no quotes in keys and nothing for typography to do
    converts to a document that converts to itself, without a fault, if and only if no key holds a
    `>`. -/
theorem convert_html_eq_self_iff {s : Text} (hmark : '\ufeff' ∉ s)
    (haccepted : (convert s).failure = none)
    (hneutral : ∀ event ∈ (read s).events, event.IsNeutral)
    (hsettled : AreSettled (exposedRuns (read s).events)) :
    convert (convert s).html = ⟨(convert s).html, none⟩ ↔
      ∀ event ∈ (read s).events, event.HoldsKeys := by
  have haccepted : (read s).failure = none := by
    have hhead : s.head? ≠ some '\ufeff' := fun hhead => hmark (List.mem_of_mem_head? hhead)
    simpa [convert, Text.dropByteOrderMark_of_head? hhead] using haccepted
  refine ⟨fun hfixed => ?_, convert_html_of_holdsKeys haccepted hneutral hmark hsettled⟩
  by_contra hkeys
  simp only [not_forall] at hkeys
  obtain ⟨event, hmem, hevent⟩ := hkeys
  have hsame := congrArg Converted.html hfixed
  exact html_convert_html_ne haccepted hneutral hmark hsettled ⟨event, hmem, hevent⟩ hsame

theorem convert_html_eq_self_of_mixed_markup :
    let s : Text := ("<!doctype  b><?c d='1'?><P E = 'f \"g\"' h i=1 j=\"k\" j='l'>" ++
      "&amp; <![CDATA[<m>]]><!-- - --><br/>&nbsp;" ++
      "<pre>-- > <q r='&lt;'>&lt;</q><![CDATA[<]]></pre></P >").toList
    let html : Text := ("<!DOCTYPE b><?c d='1'?><P E=\"f &quot;g&quot;\" j=\"k\">" ++
      "&amp; &lt;m&gt;<!-- - --><br></br>&nbsp;" ++
      "<pre>-- &gt; <q r=\"&lt;\">&lt;</q>&lt;</pre></P>").toList
    '\ufeff' ∉ s ∧ convert s = ⟨html, none⟩ ∧ (∀ event ∈ (read s).events, event.IsNeutral) ∧
      AreSettled (exposedRuns (read s).events) ∧ (∀ event ∈ (read s).events, event.HoldsKeys) ∧
      convert html = ⟨html, none⟩ := by
  intro s html
  have hsource : '\ufeff' ∉ s ∧ convert s = ⟨html, none⟩ ∧
      (∀ event ∈ (read s).events, event.IsNeutral) ∧ AreSettled (exposedRuns (read s).events) ∧
      ∀ event ∈ (read s).events, event.HoldsKeys := by decide +kernel
  obtain ⟨hmark, hconvert, hneutral, hsettled, hkeys⟩ := hsource
  have hhtml : (convert s).html = html := by simp only [hconvert]
  have haccepted : (convert s).failure = none := by simp only [hconvert]
  have hfixed := (convert_html_eq_self_iff hmark haccepted hneutral hsettled).2 hkeys
  rw [hhtml] at hfixed
  exact ⟨hmark, hconvert, hneutral, hsettled, hkeys, hfixed⟩

/-- Two stray quotes keep the tag open for a key with a `>`. They are not written, and what was a
    value is text in the second output. -/
theorem bracket_in_key_is_not_canonical :
    let s : Text := "<p x' a>b=\"1\" '></p>".toList
    '\ufeff' ∉ s ∧ (∀ event ∈ (read s).events, event.IsNeutral) ∧
      AreSettled (exposedRuns (read s).events) ∧
      convert s = ⟨"<p a>b=\"1\"></p>".toList, none⟩ ∧
      convert (convert s).html ≠ ⟨(convert s).html, none⟩ ∧
      convert (convert s).html = ⟨"<p>b=\"1\"></p>".toList, none⟩ := by
  decide +kernel

end PostMarkup.Dialect
