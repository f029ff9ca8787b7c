import PostMarkup.Html.Writing
import PostMarkup.Proofs.Reference.Extent
import PostMarkup.Proofs.Text.LineEnd

namespace PostMarkup.Text

theorem toLower_of_not_isAlpha {c : Char} (hc : c.isAlpha = false) : c.toLower = c := by
  apply Char.toLower_eq_of_not_isUpper
  intro hupper
  simp [Char.isAlpha, hupper] at hc

theorem toLower_eq_iff {c d : Char} (hd : d.isAlpha = false) : c.toLower = d ↔ c = d := by
  constructor
  · rintro rfl
    rw [Char.isAlpha_toLower_eq_isAlpha] at hd
    exact (toLower_of_not_isAlpha hd).symm
  · rintro rfl
    exact toLower_of_not_isAlpha hd

end PostMarkup.Text

namespace PostMarkup.Html

/-- Folding a name leaves the characters that structure a tag alone, and makes none of them. -/
theorem visible_toLower_eq_iff {c d : Char} (hletter : d.isAlpha = false) (hnull : d ≠ '\x00')
    (hreplacement : d ≠ Reference.replacementCharacter) : visible c.toLower = d ↔ c = d := by
  unfold visible
  split
  · next hc =>
    constructor
    · rintro rfl
      contradiction
    · rintro rfl
      exact absurd ((Text.toLower_eq_iff rfl).1 hc) hnull
  · exact Text.toLower_eq_iff hletter

/-- The characters that end a name are not letters, and reading makes none of them. -/
theorem of_endsName {c : Char} (hc : endsName c) :
    c.isAlpha = false ∧ c ≠ '\x00' ∧ c ≠ Reference.replacementCharacter := by
  simp only [endsName, isTagBlank, Bool.or_eq_true, decide_eq_true_eq, or_assoc] at hc
  obtain rfl | rfl | rfl | rfl | rfl | rfl := hc <;> decide

theorem endsName_visible_toLower (c : Char) : endsName (visible c.toLower) = endsName c := by
  rw [Bool.eq_iff_iff]
  constructor
  · intro hends
    obtain ⟨hletter, hnull, hreplacement⟩ := of_endsName hends
    rwa [← (visible_toLower_eq_iff hletter hnull hreplacement).1 rfl] at hends
  · intro hends
    obtain ⟨hletter, hnull, hreplacement⟩ := of_endsName hends
    rwa [(visible_toLower_eq_iff hletter hnull hreplacement).2 rfl]

theorem foldName_foldName (name : Text) : foldName (foldName name) = foldName name := by
  have hchar (c : Char) : visible (visible c.toLower).toLower = visible c.toLower := by
    unfold visible
    split
    · decide
    · next hc => rw [Char.toLower_toLower_eq_toLower, if_neg hc]
  simp [foldName, hchar]

/-- The name of a tag as reading gives it. -/
structure IsTagName (name : Text) : Prop where
  letter : name.head?.any Char.isAlpha
  plain : ∀ c ∈ name, endsName c = false ∧ c ≠ '\r'
  folded : foldName name = name

/-- The key of an attribute as reading gives it. Its first character alone may be an equals sign. -/
structure IsKey (key : Text) : Prop where
  nonempty : key ≠ []
  plain : ∀ c ∈ key, endsName c = false ∧ c ≠ '\r'
  equals : '=' ∉ key.tail
  folded : foldName key = key

theorem plain_foldName {s : Text} (hs : ∀ c ∈ s, endsName c = false ∧ c ≠ '\r') :
    ∀ c ∈ foldName s, endsName c = false ∧ c ≠ '\r' := by
  intro c hc
  obtain ⟨d, hd, rfl⟩ := List.mem_map.1 hc
  obtain ⟨hends, hreturn⟩ := hs d hd
  rw [endsName_visible_toLower, Ne, visible_toLower_eq_iff rfl (by decide) (by decide)]
  exact ⟨hends, hreturn⟩

theorem isAlpha_visible_toLower {c : Char} (hc : c.isAlpha) : (visible c.toLower).isAlpha := by
  unfold visible
  split
  · next hnull =>
    obtain rfl := (Text.toLower_eq_iff rfl).1 hnull
    contradiction
  · rwa [Char.isAlpha_toLower_eq_isAlpha]

/-- The name that is read at a letter is a tag name. -/
theorem isTagName_of_isAlpha {s : Text} (hs : '\r' ∉ s) (hletter : s.head?.any Char.isAlpha) :
    IsTagName (foldName (s.takeWhile fun c => !endsName c)) where
  letter := by
    obtain _ | ⟨c, s⟩ := s
    · contradiction
    have hc : c.isAlpha := hletter
    have hends : endsName c = false := by
      rw [Bool.eq_false_iff]
      exact fun hends => absurd hc (by simp [of_endsName hends])
    simpa [hends, foldName] using isAlpha_visible_toLower hc
  plain := plain_foldName fun c hc => by
    have hends := Text.of_mem_takeWhile hc
    have hmem := (List.takeWhile_prefix _).subset hc
    exact ⟨by simpa using hends, fun heq => hs (heq ▸ hmem)⟩
  folded := foldName_foldName _

/-- The key that is read at a character that neither ends a name nor is left out. -/
theorem isKey_foldName {c : Char} {s : Text} (hs : '\r' ∉ c :: s) (hc : endsName c = false) :
    IsKey (foldName (c :: s.takeWhile fun c => !endsName c && c ≠ '=')) where
  nonempty := by simp [foldName]
  plain := plain_foldName fun d hd => by
    obtain rfl | hd := List.mem_cons.1 hd
    · exact ⟨hc, fun heq => hs (by simp [heq])⟩
    · have hinKey := Text.of_mem_takeWhile hd
      have hmem := (List.takeWhile_prefix _).subset hd
      simp only [Bool.and_eq_true, Bool.not_eq_true'] at hinKey
      exact ⟨hinKey.1, fun heq => hs (List.mem_cons_of_mem _ (heq ▸ hmem))⟩
  equals := by
    intro hmem
    obtain ⟨d, hd, heq⟩ := List.mem_map.1 hmem
    have hinKey := Text.of_mem_takeWhile hd
    simp [(visible_toLower_eq_iff rfl (by decide) (by decide)).1 heq] at hinKey
  folded := foldName_foldName _

/-- A tag whose parts are of the form that reading gives. -/
structure WellFormedTag (name : Text) (attributes : List Attribute) : Prop where
  name : IsTagName name
  keys : ∀ entry ∈ attributes, IsKey entry.key
  values : ∀ entry ∈ attributes, '\x00' ∉ entry.value
  distinct : (attributes.map Attribute.key).Nodup

theorem decodeValue_nil : decodeValue [] = [] := by
  rw [decodeValue]

theorem decodeValue_cons {c : Char} (hc : c ≠ '&') (s : Text) :
    decodeValue (c :: s) = visible c :: decodeValue s := by
  rw [decodeValue]
  exact hc

theorem decodeValue_escape {c : Char} {name : Text} (hescape : (c, name) ∈ Reference.escapes)
    (s : Text) : decodeValue ('&' :: (name ++ ';' :: s)) = c :: decodeValue s := by
  rw [decodeValue, Reference.read_escape hescape]
  rfl

/-- An escaped value is decoded to itself, unless it holds U+0000. -/
theorem decodeValue_escapeValue {value : Text} (hvalue : '\x00' ∉ value) :
    decodeValue (escapeValue value) = value := by
  induction value with
  | nil => exact decodeValue_nil
  | cons c value ih =>
    have hrest := ih fun hmem => hvalue (by simp [hmem])
    have hc : c ≠ '\x00' := fun heq => hvalue (by simp [heq])
    have hescape (d : Char) (name : Text) (hmem : (d, name) ∈ Reference.escapes) :
        decodeValue ('&' :: (name ++ ';' :: escapeValue value)) = d :: value := by
      rw [decodeValue_escape hmem, hrest]
    rw [escapeValue, List.flatMap_cons, ← escapeValue]
    split
    · exact hescape '<' "lt".toList (by decide)
    · exact hescape '>' "gt".toList (by decide)
    · exact hescape '&' "amp".toList (by decide)
    · exact hescape '\'' "apos".toList (by decide)
    · exact hescape '"' "quot".toList (by decide)
    · next hampersand _ _ =>
      rw [List.singleton_append, decodeValue_cons hampersand, hrest, visible, if_neg hc]

theorem readTagEnd?_angle (s : Text) : readTagEnd? ('>' :: s) = some ⟨[], false, s⟩ := by
  rw [readTagEnd?]

theorem readTagEnd?_slash_angle (s : Text) :
    readTagEnd? ('/' :: '>' :: s) = some ⟨[], true, s⟩ := by
  rw [readTagEnd?]

theorem readTagEnd?_space (s : Text) : readTagEnd? (' ' :: s) = readTagEnd? s := by
  rw [readTagEnd?]
  · rfl
  all_goals simp

/-- An attribute with a value, by the cuts that find its parts. -/
theorem readTagEnd?_of_cuts {c : Char} {s s₁ s₂ value : Text} (hc : endsName c = false)
    (hequals : (s.dropWhile fun c => !endsName c && c ≠ '=').dropWhile isTagBlank = '=' :: s₁)
    (hvalue : readValue? s₁ = some (value, s₂)) :
    readTagEnd? (c :: s) = (readTagEnd? s₂).map fun later =>
      { later with
        attributes := ⟨foldName (c :: s.takeWhile fun c => !endsName c && c ≠ '='),
          decodeValue value⟩ :: later.attributes } := by
  simp only [endsName, Bool.or_eq_false_iff, decide_eq_false_iff_not] at hc
  obtain ⟨⟨hblank, hslash⟩, hangle⟩ := hc
  conv => lhs; unfold readTagEnd?
  split
  · contradiction
  · next heq => exact absurd (List.cons.inj heq).1 hangle
  · next heq => exact absurd (List.cons.inj heq).1 hslash
  · next heq =>
    obtain ⟨rfl, rfl⟩ := List.cons.inj heq
    simp only [hslash, hblank, decide_false, Bool.false_or, Bool.false_eq_true, if_false]
    split
    · next heq =>
      rw [hequals] at heq
      obtain ⟨-, rfl⟩ := List.cons.inj heq
      split
      · next heq =>
        rw [hvalue] at heq
        cases heq
        rfl
      · next heq => rw [hvalue] at heq; contradiction
    · next hne => exact absurd hequals (hne _)

theorem readValue?_quoted {value : Text} (hvalue : '"' ∉ value) (s : Text) :
    readValue? ('"' :: (value ++ '"' :: s)) = some (value, s) := by
  have hstart : ('"' :: (value ++ '"' :: s)).dropWhile isTagBlank = '"' :: (value ++ '"' :: s) :=
    List.dropWhile_cons_of_neg (by decide)
  simp only [readValue?, hstart, Text.upTo?_quote hvalue s]
  rfl

theorem quote_not_mem_escapeValue (value : Text) : '"' ∉ escapeValue value := by
  unfold escapeValue
  rw [List.mem_flatMap]
  rintro ⟨c, -, hc⟩
  split at hc
  all_goals first | exact absurd hc (by decide) | skip
  next hquote =>
    exact hquote (List.mem_singleton.1 hc).symm

/-- An attribute whose value can stand between double quotes. -/
structure Quotable (entry : Attribute) : Prop where
  key : IsKey entry.key
  value : '"' ∉ entry.value

/-- A written attribute as it is read. -/
def decodeAttribute (entry : Attribute) : Attribute := ⟨entry.key, decodeValue entry.value⟩

/-- An attribute in the form in which it is read back. -/
def escapeAttribute (entry : Attribute) : Attribute := ⟨entry.key, escapeValue entry.value⟩

theorem readTagEnd?_write {entry : Attribute} (hentry : Quotable entry) (s : Text) :
    readTagEnd? (entry.write ++ s) = (readTagEnd? s).map fun later =>
      { later with attributes := decodeAttribute entry :: later.attributes } := by
  obtain ⟨_ | ⟨c, key⟩, value⟩ := entry
  · exact absurd rfl hentry.key.nonempty
  have hc : endsName c = false := (hentry.key.plain c (by simp)).1
  have hinKey : ∀ d ∈ key, (!endsName d && d ≠ '=') = true := by
    intro d hd
    have hequals : d ≠ '=' := fun heq => hentry.key.equals (heq ▸ hd)
    simp [(hentry.key.plain d (by simp [hd])).1, hequals]
  have hstop : (!endsName '=' && decide ('=' ≠ '=')) = false := by decide
  have hwritten : Attribute.write ⟨c :: key, value⟩ ++ s =
      ' ' :: c :: (key ++ '=' :: '"' :: (value ++ '"' :: s)) := by
    simp [Attribute.write]
  have hcut := Text.dropWhile_append_stop hinKey hstop (s := '"' :: (value ++ '"' :: s))
  rw [hwritten, readTagEnd?_space,
    readTagEnd?_of_cuts hc (by rw [hcut]; rfl) (readValue?_quoted hentry.value s),
    Text.takeWhile_append_stop hinKey hstop, hentry.key.folded]
  rfl

def tagClose (selfClosing : Bool) : Text := if selfClosing then "/>".toList else ['>']

theorem readTagEnd?_flatMap_write {attributes : List Attribute}
    (hattributes : ∀ entry ∈ attributes, Quotable entry) (selfClosing : Bool) (s : Text) :
    readTagEnd? (attributes.flatMap Attribute.write ++ tagClose selfClosing ++ s) =
      some ⟨attributes.map decodeAttribute, selfClosing, s⟩ := by
  induction attributes with
  | nil =>
    cases selfClosing with
    | true => exact readTagEnd?_slash_angle s
    | false => exact readTagEnd?_angle s
  | cons entry attributes ih =>
    obtain ⟨hentry, hattributes⟩ := List.forall_mem_cons.1 hattributes
    rw [List.flatMap_cons, List.append_assoc, List.append_assoc, readTagEnd?_write hentry,
      ← List.append_assoc, ih hattributes]
    rfl

/-- A tag is read from its name on, with the references in its values decoded. -/
theorem readTag?_write {name : Text} {attributes : List Attribute} (hname : IsTagName name)
    (hattributes : ∀ entry ∈ attributes, Quotable entry) (selfClosing : Bool) (s : Text) :
    readTag? (name ++ attributes.flatMap Attribute.write ++ tagClose selfClosing ++ s) =
      some ⟨⟨attributes.map decodeAttribute, selfClosing, s⟩, name⟩ := by
  have hplain : ∀ c ∈ name, (!endsName c) = true := fun c hc => by simp [(hname.plain c hc).1]
  have hcut : ∃ c t, attributes.flatMap Attribute.write ++ tagClose selfClosing ++ s = c :: t ∧
      (!endsName c) = false := by
    cases attributes with
    | nil => cases selfClosing <;> exact ⟨_, _, rfl, by decide⟩
    | cons entry attributes => exact ⟨_, _, rfl, by decide⟩
  obtain ⟨c, t, heq, hstop⟩ := hcut
  have hread := readTagEnd?_flatMap_write hattributes selfClosing s
  rw [List.append_assoc, List.append_assoc, ← List.append_assoc _ _ s]
  rw [heq] at hread ⊢
  rw [readTag?, Text.dropWhile_append_stop hplain hstop, Text.takeWhile_append_stop hplain hstop,
    hname.folded, hread]
  rfl

theorem flatMap_writeAttribute (attributes : List Attribute) :
    attributes.flatMap writeAttribute = (attributes.map escapeAttribute).flatMap Attribute.write := by
  rw [List.flatMap_map]
  rfl

theorem map_decodeAttribute_escapeAttribute {attributes : List Attribute}
    (hvalues : ∀ entry ∈ attributes, '\x00' ∉ entry.value) :
    (attributes.map escapeAttribute).map decodeAttribute = attributes := by
  rw [List.map_map]
  refine (List.map_congr_left fun entry hentry => ?_).trans (List.map_id attributes)
  exact congrArg (Attribute.mk entry.key) (decodeValue_escapeValue (hvalues entry hentry))

/-- An attribute with the line ends of its value normalised. -/
def normaliseAttribute (entry : Attribute) : Attribute :=
  ⟨entry.key, normaliseLineEnds entry.value⟩

/-- Line ends of written attributes are those of their values. -/
theorem normaliseLineEnds_flatMap_write {attributes : List Attribute}
    (hkeys : ∀ entry ∈ attributes, '\r' ∉ entry.key) (s : Text) :
    normaliseLineEnds (attributes.flatMap Attribute.write ++ s) =
      (attributes.map normaliseAttribute).flatMap Attribute.write ++ normaliseLineEnds s := by
  induction attributes with
  | nil => rfl
  | cons entry attributes ih =>
    obtain ⟨hkey, hkeys⟩ := List.forall_mem_cons.1 hkeys
    have hstart : '\r' ∉ ' ' :: entry.key ++ "=\"".toList := by simp [hkey]
    have hwritten (value t : Text) : Attribute.write ⟨entry.key, value⟩ ++ t =
        (' ' :: entry.key ++ "=\"".toList) ++ (value ++ '"' :: t) := by
      simp [Attribute.write]
    rw [List.flatMap_cons, List.append_assoc, hwritten, normaliseLineEnds_append_of_not_mem hstart,
      normaliseLineEnds_append (by simp), normaliseLineEnds_cons (by decide), ih hkeys, ← hwritten,
      List.map_cons, List.flatMap_cons, List.append_assoc]
    rfl

/-- A written tag is read back, from its name on. -/
theorem readTag?_written {name : Text} {attributes : List Attribute}
    (h : WellFormedTag name attributes) (selfClosing : Bool) (s : Text) :
    readTag? (name ++ attributes.flatMap writeAttribute ++ tagClose selfClosing ++ s) =
      some ⟨⟨attributes, selfClosing, s⟩, name⟩ := by
  have hquotable : ∀ entry ∈ attributes.map escapeAttribute, Quotable entry := by
    intro escaped hescaped
    obtain ⟨entry, hentry, rfl⟩ := List.mem_map.1 hescaped
    exact ⟨h.keys entry hentry, quote_not_mem_escapeValue entry.value⟩
  rw [flatMap_writeAttribute, readTag?_write h.name hquotable,
    map_decodeAttribute_escapeAttribute h.values]

end PostMarkup.Html
