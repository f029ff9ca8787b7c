import PostMarkup.Proofs.Html.Retokenizing
import PostMarkup.Proofs.Html.Rereading
import PostMarkup.Proofs.Text.Escape
import PostMarkup.Proofs.Typography.Silence

namespace PostMarkup.Html

/-- Hiding an angle bracket puts no character of references in its place. -/
theorem head?_escapeAngles {s : Text}
    (hs : ∀ c ∈ s.head?, Reference.isReferenceCharacter c = false) :
    ∀ c ∈ (escapeAngles s).head?, Reference.isReferenceCharacter c = false := by
  cases s with
  | nil => simp [escapeAngles]
  | cons c s =>
    by_cases hangle : c ≠ '<' ∧ c ≠ '>'
    · rw [escapeAngles_cons hangle]
      exact hs
    · intro d hd
      have hampersand : (escapeAngles (c :: s)).head? = some '&' := by
        obtain rfl | rfl : c = '<' ∨ c = '>' := by
          by_contra hnot
          exact hangle (not_or.1 hnot)
        · rfl
        · rfl
      obtain rfl : '&' = d := by simpa [hampersand] using hd
      decide

/-- A reference is read alike whether angle brackets after it are hidden or not. -/
theorem read_escapeAngles (s : Text) :
    Reference.read .runningText (escapeAngles s) =
      { Reference.read .runningText s with
        rest := escapeAngles (Reference.read .runningText s).rest } := by
  have hangle : ∀ c, Reference.isReferenceCharacter c → c ≠ '<' ∧ c ≠ '>' := by
    intro c hc
    constructor
    all_goals
      rintro rfl
      contradiction
  have hstop : ∀ c ∈ (s.dropWhile Reference.isReferenceCharacter).head?,
      Reference.isReferenceCharacter c = false := by
    intro c hc
    have hhead := List.head?_dropWhile_not Reference.isReferenceCharacter s
    rw [hc] at hhead
    simpa using hhead
  have htaken : ∀ c ∈ s.takeWhile Reference.isReferenceCharacter, c ≠ '<' ∧ c ≠ '>' :=
    fun c hc => hangle c (Text.of_mem_takeWhile hc)
  rw [← List.takeWhile_append_dropWhile (p := Reference.isReferenceCharacter) (l := s)]
  generalize s.takeWhile Reference.isReferenceCharacter = taken at htaken
  generalize s.dropWhile Reference.isReferenceCharacter = stop at hstop
  have hrest : ∀ c ∈ (Reference.read .runningText taken).rest, c ≠ '<' ∧ c ≠ '>' := by
    intro c hc
    have hsuffix := suffix_of_takes (Reference.takes_read .runningText taken)
    exact htaken c (hsuffix.subset hc)
  rw [escapeAngles_append_of_forall htaken, Reference.read_append (head?_escapeAngles hstop),
    Reference.read_append hstop]
  simp only [Reference.Found.before, escapeAngles_append_of_forall hrest]

/-- Hidden angle brackets are read as they were, and nothing else is hidden. -/
theorem decodeText_escapeAngles (s : Text) : decodeText (escapeAngles s) = decodeText s := by
  fun_induction decodeText s with
  | case1 => exact decodeText_nil
  | case2 s found ih =>
    rw [escapeAngles_cons (by decide), decodeText_ampersand, read_escapeAngles, ih]
  | case3 c s hampersand ih =>
    by_cases hangle : c ≠ '<' ∧ c ≠ '>'
    · rw [escapeAngles_cons hangle, decodeText_cons hampersand, ih]
    · obtain ⟨name, hescape, heq⟩ : ∃ name, (c, name) ∈ Reference.escapes ∧
          escapeAngles (c :: s) = '&' :: (name ++ ';' :: escapeAngles s) := by
        obtain rfl | rfl : c = '<' ∨ c = '>' := by
          by_contra hnot
          exact hangle (not_or.1 hnot)
        · exact ⟨"lt".toList, by decide, rfl⟩
        · exact ⟨"gt".toList, by decide, rfl⟩
      rw [heq, decodeText_ampersand, Reference.read_escape hescape, ih]
      rfl

theorem length_decodeText_le (s : Text) : (decodeText s).length ≤ s.length := by
  fun_induction decodeText s with
  | case1 => exact Nat.le_refl _
  | case2 s found ih =>
    rw [List.length_append, List.length_cons]
    by_cases hbegins : Reference.Begins s
    · have hlength := (Reference.length_le_of_begins hbegins).2
      change found.text.length + found.rest.length ≤ s.length at hlength
      omega
    · have hrest : found.rest = s := by simpa [Reference.Begins] using hbegins
      have htext : found.text = ['&'] := Reference.text_of_not_begins hbegins
      rw [hrest] at ih ⊢
      rw [htext, List.length_singleton]
      omega
  | case3 c s _ ih =>
    rw [List.length_cons, List.length_cons]
    omega

/-- No ampersand of the text begins a character reference. -/
def HoldsNoReference (s : Text) : Prop :=
  ∀ before after, s = before ++ '&' :: after → ¬ Reference.Begins after

theorem holdsNoReference_cons {c : Char} {s : Text} :
    HoldsNoReference (c :: s) ↔ (c = '&' → ¬ Reference.Begins s) ∧ HoldsNoReference s := by
  constructor
  · intro h
    refine ⟨?_, fun before after heq => h (c :: before) after (by rw [heq, List.cons_append])⟩
    rintro rfl
    exact h [] s rfl
  · rintro ⟨hfirst, hlater⟩ before after heq
    cases before with
    | nil =>
      obtain ⟨rfl, rfl⟩ := List.cons.inj heq
      exact hfirst rfl
    | cons d before => exact hlater before after (List.cons.inj heq).2

/-- Decoding changes a text exactly if an ampersand in it begins a reference. -/
theorem decodeText_eq_self_iff (s : Text) : decodeText s = s ↔ HoldsNoReference s := by
  induction s with
  | nil => simp [decodeText_nil, HoldsNoReference]
  | cons c s ih =>
    rw [holdsNoReference_cons, ← ih]
    by_cases hampersand : c = '&'
    · subst hampersand
      rw [decodeText_ampersand]
      by_cases hbegins : Reference.Begins s
      · have hlength := (Reference.length_le_of_begins hbegins).2
        have hrest := length_decodeText_le (Reference.read .runningText s).rest
        refine iff_of_false (fun heq => ?_) (by simp [hbegins])
        have hwhole := congrArg List.length heq
        rw [List.length_append, List.length_cons] at hwhole
        omega
      · have hrest : (Reference.read .runningText s).rest = s := by
          simpa [Reference.Begins] using hbegins
        rw [Reference.text_of_not_begins hbegins, hrest]
        simp [hbegins]
    · rw [decodeText_cons hampersand]
      simp [hampersand]

/-- Nodes that no rule touches are written with their angle brackets hidden. -/
theorem writeNodes_of_isSilent {place : Place SkipZone} (hzone : place.policyState.isActive = false)
    {nodes : List Text}
    (hsilent : ∀ node ∈ nodes, ∀ rule ∈ Typography.RuleSet.html,
      rule.IsSilent none (escapeAngles node)) :
    stored.writeNodes place nodes = escapeAngles nodes.flatten := by
  have hwritten : ∀ node ∈ nodes, stored.writeText place node = escapeAngles node := by
    intro node hnode
    rw [writeText_stored, hzone]
    exact Typography.RuleSet.apply_of_isSilent (hsilent node hnode)
  rw [Style.writeNodes, List.flatMap_congr hwritten]
  clear hsilent hwritten
  induction nodes with
  | nil => rfl
  | cons node nodes ih => rw [List.flatMap_cons, ih, List.flatten_cons, escapeAngles_append]

/-- Outside skip zones and raw text elements, text of which no rule touches any node comes back with
    its character references decoded. It is the same text exactly if it holds none. -/
theorem typographStored_untouched_text {input : Text} {i : Nat} {stretch : Stretch}
    (hstretch : (stretches Token.isTag (tokenize input)).2[i]? = some stretch)
    (hzone : (((tags (tokenize input)).take (i + 1)).foldl zoneAfter {}).isActive = false)
    (hraw : stretch.mark.opensRawText = false) (hreturn : '\r' ∉ stretch.nodes.flatten)
    (hsilent : ∀ node ∈ stretch.nodes, ∀ rule ∈ Typography.RuleSet.html,
      rule.IsSilent none (escapeAngles node)) :
    (cut (tokenize input)).2[i]? = some ⟨stretch.mark, stretch.nodes.flatten⟩ ∧
      (cut (tokenize (typographStored input))).2[i]? =
        some ⟨stretch.mark.bare.normalise, decodeText stretch.nodes.flatten⟩ ∧
      (decodeText stretch.nodes.flatten = stretch.nodes.flatten ↔
        HoldsNoReference stretch.nodes.flatten) := by
  have hcut : (cut (tokenize input)).2[i]? = some ⟨stretch.mark, stretch.nodes.flatten⟩ := by
    rw [cut, spansAt_eq_stretches, List.getElem?_map, hstretch]
    rfl
  refine ⟨hcut, ?_, decodeText_eq_self_iff _⟩
  have hnull : '\x00' ∉ stretch.nodes.flatten :=
    (null_not_mem_cut (orderly_tokenize input).wellFormed).2 _ (List.mem_of_getElem? hcut)
  have hescaped {c : Char} (hc : c ∉ "&lgt;".toList) (hmem : c ∉ stretch.nodes.flatten) :
      c ∉ escapeAngles stretch.nodes.flatten := fun h =>
    (mem_escapeAngles h).elim hc fun hboth => hmem hboth.2
  obtain ⟨place, hplace, hentry⟩ : ∃ place : Place SkipZone, place.policyState.isActive = false ∧
      (stored.source input)[i]? = some (place, stretch) := by
    refine ⟨((tags (tokenize input)).take (i + 1)).foldl stored.after stored.start, ?_, ?_⟩
    · rwa [policyState_foldl_after_stored]
    · rw [Style.source, Style.getElem?_placed, map_mark_stretches, keeps_stored, hstretch]
      rfl
  have hspan : (stored.span (place, stretch)).normalise.read =
      ⟨stretch.mark.bare.normalise, decodeText stretch.nodes.flatten⟩ := by
    have hwritten := writeNodes_of_isSilent hplace hsilent
    simp only [Style.span, Span.normalise, Span.read, adjusted_stored, hwritten, opens?_normalise,
      bare_normalise_bare]
    rw [normaliseLineEnds_of_not_mem (hescaped (by decide) hreturn),
      readText_opens? _ (hescaped (by decide) hnull), opensRawText_bare, hraw,
      if_neg Bool.false_ne_true, decodeText_escapeAngles]
  rw [cut_tokenize_typographStored, Style.spans, List.map_map, List.getElem?_map, hentry]
  exact congrArg some hspan

theorem typographStored_untouched_text_beside_comment :
    let input := "<p>AT&amp;T &lt;<!--c--> &amp;gt;</p>".toList
    let stretch : Stretch :=
      ⟨.startTag "p".toList [] false, ["AT&T <".toList, " &gt;".toList]⟩
    (stretches Token.isTag (tokenize input)).2[0]? = some stretch ∧
      (((tags (tokenize input)).take 1).foldl zoneAfter {}).isActive = false ∧
      stretch.mark.opensRawText = false ∧ '\r' ∉ stretch.nodes.flatten ∧
      (∀ node ∈ stretch.nodes, ∀ rule ∈ Typography.RuleSet.html,
        rule.IsSilent none (escapeAngles node)) ∧
      (cut (tokenize (typographStored input))).2[0]? =
        some ⟨stretch.mark, "AT&T < >".toList⟩ := by
  intro input stretch
  have hstretch : (stretches Token.isTag (tokenize input)).2[0]? = some stretch := by
    decide +kernel
  have hzone : (((tags (tokenize input)).take 1).foldl zoneAfter {}).isActive = false := by
    decide +kernel
  have hsilent : ∀ node ∈ stretch.nodes, ∀ rule ∈ Typography.RuleSet.html,
      rule.IsSilent none (escapeAngles node) := by
    decide +kernel
  have hkept := typographStored_untouched_text hstretch hzone rfl (by decide) hsilent
  have hdecoded : decodeText stretch.nodes.flatten = "AT&T < >".toList := by decide +kernel
  refine ⟨hstretch, hzone, rfl, by decide, hsilent, ?_⟩
  rw [hkept.2.1, hdecoded]
  rfl

/-- An ampersand that is written as it is can begin a reference, and a comment that is left out can
    hide from the rules that text goes on before it. -/
theorem untouched_text_can_change :
    let paragraph := Token.startTag "p".toList [] false
    let ampersand := "<p>&amp;lt;</p>".toList
    let divided := "<p>;<!--c-->- x</p>".toList
    (zoneAfter {} paragraph).isActive = false ∧ paragraph.opensRawText = false ∧
      (∀ rule ∈ Typography.RuleSet.html, rule.IsSilent none (escapeAngles "&lt;".toList)) ∧
      (cut (tokenize ampersand)).2[0]? = some ⟨paragraph, "&lt;".toList⟩ ∧
      (cut (tokenize (typographStored ampersand))).2[0]? = some ⟨paragraph, "<".toList⟩ ∧
      (∀ rule ∈ Typography.RuleSet.html, rule.IsSilent none (escapeAngles ";- x".toList)) ∧
      (cut (tokenize divided)).2[0]? = some ⟨paragraph, ";- x".toList⟩ ∧
      (cut (tokenize (typographStored divided))).2[0]? = some ⟨paragraph, ";— x".toList⟩ := by
  decide +kernel

end PostMarkup.Html
