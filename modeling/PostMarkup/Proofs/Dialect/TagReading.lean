import Mathlib.Data.List.Basic
import PostMarkup.Proofs.Dialect.Locality

namespace PostMarkup.Dialect

/-- A Latin letter, and then Latin letters and digits. -/
def IsPlainName : Text → Prop
  | [] => False
  | c :: s => c.isAlpha ∧ ∀ d ∈ s, d.isAlphanum

instance : DecidablePred IsPlainName
  | [] => inferInstanceAs (Decidable False)
  | c :: s =>
    have : Decidable (∀ d ∈ s, d.isAlphanum = true) := List.decidableBAll _ s
    inferInstanceAs (Decidable (c.isAlpha = true ∧ ∀ d ∈ s, d.isAlphanum = true))

/-- A key as reading finds it: it has no separators, and no equals sign but at its head. -/
structure IsFoundKey (key : Text) : Prop where
  nonempty : key ≠ []
  separators : ∀ c ∈ key, isSeparator c = false
  equals : '=' ∉ key.tail

/-- A found key that leaves the tag open where it is written. -/
structure IsWritableKey (key : Text) : Prop extends IsFoundKey key where
  plain : ∀ c ∈ key, c ≠ '>' ∧ DocumentType.isQuote c = false

theorem IsFoundKey.isWritable {key : Text} (h : IsFoundKey key)
    (hquotes : ∀ c ∈ key, DocumentType.isQuote c = false) (hangle : '>' ∉ key) :
    IsWritableKey key where
  toIsFoundKey := h
  plain c hc := ⟨fun heq => hangle (heq ▸ hc), hquotes c hc⟩

/-- An attribute together with the quotes that it is written with. -/
structure QuotedAttribute extends Attribute where
  quote : Char
deriving DecidableEq

namespace QuotedAttribute

def source (entry : QuotedAttribute) : Text :=
  ' ' :: entry.key ++ '=' :: entry.quote :: entry.value ++ [entry.quote]

structure WellFormed (entry : QuotedAttribute) : Prop where
  key : IsPlainName entry.key
  quote : DocumentType.isQuote entry.quote
  value : entry.quote ∉ entry.value

/-- The attribute is read as it is written. -/
structure Readable (entry : QuotedAttribute) : Prop where
  key : IsWritableKey entry.key
  quote : DocumentType.isQuote entry.quote
  value : entry.quote ∉ entry.value

instance : DecidablePred WellFormed := fun entry =>
  decidable_of_iff
    (IsPlainName entry.key ∧ DocumentType.isQuote entry.quote ∧ entry.quote ∉ entry.value)
    ⟨fun ⟨hkey, hquote, hvalue⟩ => ⟨hkey, hquote, hvalue⟩,
      fun ⟨hkey, hquote, hvalue⟩ => ⟨hkey, hquote, hvalue⟩⟩

end QuotedAttribute

theorem IsPlainName.isAlphanum {name : Text} (h : IsPlainName name) :
    ∀ c ∈ name, c.isAlphanum := by
  cases name with
  | nil => exact fun c hc => absurd hc (by simp)
  | cons d s =>
    intro c hc
    obtain rfl | hc := List.mem_cons.1 hc
    · simp [Char.isAlphanum, h.1]
    · exact h.2 c hc

theorem ne_of_isAlphanum {c d : Char} (hc : c.isAlphanum) (hd : d.isAlphanum = false) : c ≠ d := by
  rintro rfl
  simp [hd] at hc

theorem isSeparator_of_isAlphanum {c : Char} (hc : c.isAlphanum) : isSeparator c = false := by
  rw [Bool.eq_false_iff]
  intro hseparator
  simp only [isSeparator, Bool.or_eq_true, decide_eq_true_eq, or_assoc] at hseparator
  obtain rfl | rfl | rfl | rfl := hseparator <;> contradiction

theorem isQuote_of_isAlphanum {c : Char} (hc : c.isAlphanum) :
    DocumentType.isQuote c = false := by
  rw [Bool.eq_false_iff]
  intro hquote
  simp only [DocumentType.isQuote, Bool.or_eq_true, decide_eq_true_eq] at hquote
  obtain rfl | rfl := hquote <;> contradiction

theorem IsPlainName.isFoundKey {name : Text} (h : IsPlainName name) : IsFoundKey name where
  nonempty := by
    rintro rfl
    exact h
  separators c hc := isSeparator_of_isAlphanum (h.isAlphanum c hc)
  equals hmem := absurd (h.isAlphanum _ (List.mem_of_mem_tail hmem)) (by decide)

theorem IsPlainName.plain {name : Text} (h : IsPlainName name) :
    ∀ c ∈ name, c ≠ '>' ∧ DocumentType.isQuote c = false := fun c hc =>
  ⟨ne_of_isAlphanum (h.isAlphanum c hc) rfl, isQuote_of_isAlphanum (h.isAlphanum c hc)⟩

theorem QuotedAttribute.WellFormed.readable {entry : QuotedAttribute} (h : entry.WellFormed) :
    entry.Readable where
  key := ⟨h.key.isFoundKey, h.key.plain⟩
  quote := h.quote
  value := h.value

theorem fitsTag_nil : FitsTag [] := fun _ => rfl

/-- Text with neither quotes nor `>` may come first in a tag. -/
theorem FitsTag.plain_append {plain inside : Text} (hinside : FitsTag inside)
    (hplain : ∀ c ∈ plain, c ≠ '>' ∧ DocumentType.isQuote c = false) :
    FitsTag (plain ++ inside) := by
  intro s
  induction plain with
  | nil => exact hinside s
  | cons c plain ih =>
    obtain ⟨hangle, hquote⟩ := hplain c (by simp)
    have hrest := ih fun d hd => hplain d (by simp [hd])
    simp only [List.cons_append, List.append_assoc] at hrest ⊢
    simp [tagInside, hangle, hquote, hrest]

theorem tagInside_quoted {quote : Char} {value s inside rest : Text} (hvalue : quote ∉ value)
    (hinside : tagInside none s = .ok (inside, rest)) :
    tagInside (some quote) (value ++ quote :: s) = .ok (value ++ quote :: inside, rest) := by
  induction value with
  | nil => simp [tagInside, hinside]
  | cons c value ih =>
    have hne : c ≠ quote := fun heq => hvalue (by simp [heq])
    have hrest := ih fun hmem => hvalue (by simp [hmem])
    simp [tagInside, hne, hrest]

/-- Quoted text may come first in a tag, whatever else is quoted. -/
theorem FitsTag.quoted_append {quote : Char} {value inside : Text} (hinside : FitsTag inside)
    (hquote : DocumentType.isQuote quote) (hvalue : quote ∉ value) :
    FitsTag (quote :: value ++ quote :: inside) := by
  intro s
  have hangle : quote ≠ '>' := by
    rintro rfl
    contradiction
  have hrest := tagInside_quoted hvalue (hinside s)
  simp only [List.cons_append, List.append_assoc] at hrest ⊢
  simp [tagInside, hangle, hquote, hrest]

theorem fitsTag_attributes {attributes : List QuotedAttribute} {inside : Text}
    (hattributes : ∀ entry ∈ attributes, entry.Readable) (hinside : FitsTag inside) :
    FitsTag (attributes.flatMap QuotedAttribute.source ++ inside) := by
  induction attributes with
  | nil => exact hinside
  | cons entry attributes ih =>
    have hentry := hattributes entry (by simp)
    have hrest := ih fun other hother => hattributes other (by simp [hother])
    have hplain : ∀ c ∈ ' ' :: entry.key ++ ['='], c ≠ '>' ∧ DocumentType.isQuote c = false := by
      intro c hc
      simp only [List.mem_append, List.mem_cons, List.not_mem_nil, or_false] at hc
      obtain (rfl | hc) | rfl := hc
      · decide
      · exact hentry.key.plain c hc
      · decide
    have hwhole := (hrest.quoted_append hentry.quote hentry.value).plain_append hplain
    simpa [QuotedAttribute.source] using hwhole

/-- An attribute in order, by the cuts that find its parts. -/
theorem readAttributes_of_cuts {seen : List Text} {s s₁ s₂ s₃ key value rest : Text}
    {c quote : Char} (hstart : s.dropWhile isSeparator = c :: s₁)
    (hkey : c :: s₁.takeWhile (fun c => c ≠ '=' && !isSeparator c) = key)
    (hequals : (s₁.dropWhile fun c => c ≠ '=' && !isSeparator c).dropWhile isSeparator = '=' :: s₂)
    (hseen : key ∉ seen) (hvalue : s₂.dropWhile isSeparator = quote :: s₃)
    (hquote : DocumentType.isQuote quote) (hcut : Text.upTo? [quote] s₃ = some (value, rest)) :
    readAttributes seen s = ⟨key, value⟩ :: readAttributes (key :: seen) rest := by
  subst hkey
  rw [readAttributes]
  grind

theorem readAttributes_source_append {entry : QuotedAttribute} (hentry : entry.Readable)
    {seen : List Text} (hseen : entry.key ∉ seen) (s : Text) :
    readAttributes seen (entry.source ++ s) =
      entry.toAttribute :: readAttributes (entry.key :: seen) s := by
  obtain ⟨⟨key, value⟩, quote⟩ := entry
  obtain ⟨hkey, hquote, hvalue⟩ := hentry
  obtain ⟨c, key, rfl⟩ := List.exists_cons_of_ne_nil hkey.nonempty
  have hc : isSeparator c = false := hkey.separators c (by simp)
  have hinKey : ∀ d ∈ key, (d ≠ '=' && !isSeparator d) = true := by
    intro d hd
    have hequals : d ≠ '=' := fun heq => hkey.equals (heq ▸ hd)
    simp [hequals, hkey.separators d (by simp [hd])]
  have hopen : isSeparator quote = false := by
    simp only [DocumentType.isQuote, Bool.or_eq_true, decide_eq_true_eq] at hquote
    obtain rfl | rfl := hquote <;> rfl
  have hstart : (QuotedAttribute.source ⟨⟨c :: key, value⟩, quote⟩ ++ s).dropWhile isSeparator =
      c :: (key ++ '=' :: quote :: (value ++ quote :: s)) := by
    simp [QuotedAttribute.source, hc, show isSeparator ' ' = true from rfl]
  have hvalueStart : (quote :: (value ++ quote :: s)).dropWhile isSeparator =
      quote :: (value ++ quote :: s) := List.dropWhile_cons_of_neg (by simp [hopen])
  refine readAttributes_of_cuts hstart ?_ ?_ hseen hvalueStart hquote (Text.upTo?_quote hvalue s)
  · rw [Text.takeWhile_append_stop hinKey rfl]
  · rw [Text.dropWhile_append_stop hinKey rfl]
    rfl

theorem exists_readAttributes_flatMap_source_append {attributes : List QuotedAttribute}
    (hattributes : ∀ entry ∈ attributes, entry.Readable)
    (hkeys : (attributes.map fun entry => entry.key).Nodup) {seen : List Text}
    (hseen : ∀ entry ∈ attributes, entry.key ∉ seen) (s : Text) :
    ∃ later, readAttributes seen (attributes.flatMap QuotedAttribute.source ++ s) =
      attributes.map QuotedAttribute.toAttribute ++ readAttributes later s := by
  induction attributes generalizing seen with
  | nil => exact ⟨seen, rfl⟩
  | cons entry attributes ih =>
    obtain ⟨hfresh, hkeys⟩ := List.nodup_cons.1 hkeys
    have hnext : ∀ other ∈ attributes, other.key ∉ entry.key :: seen := by
      intro other hother hmem
      obtain heq | hmem := List.mem_cons.1 hmem
      · exact hfresh (List.mem_map.2 ⟨other, hother, heq⟩)
      · exact hseen other (by simp [hother]) hmem
    have hothers : ∀ other ∈ attributes, other.Readable := fun other hother =>
      hattributes other (by simp [hother])
    obtain ⟨later, hlater⟩ := ih hothers hkeys hnext
    refine ⟨later, ?_⟩
    rw [List.flatMap_cons, List.append_assoc,
      readAttributes_source_append (hattributes entry (by simp)) (hseen entry (by simp)), hlater]
    rfl

/-- A key with nothing after it is no attribute. -/
theorem readAttributes_bareKey {key : Text} (hseparators : ∀ c ∈ key, isSeparator c = false)
    (hequals : '=' ∉ key.tail) (seen : List Text) : readAttributes seen (' ' :: key) = [] := by
  have hblank : (' ' :: key).dropWhile isSeparator = key.dropWhile isSeparator := rfl
  obtain _ | ⟨c, key⟩ := key
  · rw [readAttributes]
    rfl
  have hall : ∀ d ∈ key, (d ≠ '=' && !isSeparator d) = true := by
    intro d hd
    have hne : d ≠ '=' := fun heq => hequals (heq ▸ hd)
    simp [hne, hseparators d (by simp [hd])]
  have hstart : (' ' :: c :: key).dropWhile isSeparator = c :: key := by
    rw [hblank, List.dropWhile_cons_of_neg (by simp [hseparators c (by simp)])]
  have hrest : (key.dropWhile fun c => c ≠ '=' && !isSeparator c).dropWhile isSeparator = [] := by
    rw [← List.append_nil key, List.dropWhile_append_of_pos hall]
    rfl
  rw [readAttributes]
  split
  · rfl
  · next d s hcut =>
    obtain ⟨rfl, rfl⟩ := List.cons.inj (hcut.symm.trans hstart)
    split
    · rfl
    · next hequals =>
      have hnone := hrest.symm.trans hequals
      contradiction
    · next hnil _ => exact absurd hrest hnil

theorem readAttributes_flatMap_source {attributes : List QuotedAttribute}
    (hattributes : ∀ entry ∈ attributes, entry.Readable)
    (hkeys : (attributes.map fun entry => entry.key).Nodup) :
    readAttributes [] (attributes.flatMap QuotedAttribute.source) =
      attributes.map QuotedAttribute.toAttribute := by
  obtain ⟨later, hread⟩ :=
    exists_readAttributes_flatMap_source_append hattributes hkeys (fun _ _ => List.not_mem_nil) []
  have hnone : readAttributes later [] = [] := by
    rw [readAttributes]
    rfl
  simpa [hnone] using hread

theorem flatMap_source_attributes {attributes : List QuotedAttribute}
    (hquotes : ∀ entry ∈ attributes, entry.quote = '"') :
    attributes.flatMap QuotedAttribute.source =
      (attributes.map QuotedAttribute.toAttribute).flatMap Attribute.write := by
  rw [List.flatMap_map]
  refine List.flatMap_congr fun entry hentry => ?_
  simp [QuotedAttribute.source, Attribute.write, hquotes entry hentry]

/-- The inside of a start tag. -/
def tagText (name : Text) (attributes : List QuotedAttribute) : Text :=
  name ++ attributes.flatMap QuotedAttribute.source

section

variable {name : Text} {attributes : List QuotedAttribute} (hname : IsPlainName name)
  (hattributes : ∀ entry ∈ attributes, entry.Readable)

include hname

theorem IsPlainName.fitsTag {inside : Text} (hinside : FitsTag inside) : FitsTag (name ++ inside) :=
  hinside.plain_append hname.plain

theorem head?_append_of_isPlainName (s : Text) :
    ∀ c ∈ (name ++ s).head?, c ≠ '!' ∧ c ≠ '?' ∧ c ≠ '/' := by
  obtain _ | ⟨c, name⟩ := name
  · contradiction
  intro d hd
  obtain rfl : c = d := by simpa using hd
  have halnum := hname.isAlphanum c (by simp)
  exact ⟨ne_of_isAlphanum halnum rfl, ne_of_isAlphanum halnum rfl, ne_of_isAlphanum halnum rfl⟩

theorem cut_append_of_isPlainName {s : Text} (hs : ∀ c ∈ s.head?, isSeparator c) :
    (name ++ s).takeWhile (fun c => !isSeparator c) = name ∧
    (name ++ s).dropWhile (fun c => !isSeparator c) = s := by
  have hall : ∀ c ∈ name, (!isSeparator c) = true := fun c hc => by
    simp [isSeparator_of_isAlphanum (hname.isAlphanum c hc)]
  rw [List.takeWhile_append_of_pos hall, List.dropWhile_append_of_pos hall]
  cases s with
  | nil => simp
  | cons c s => simp [hs c rfl]

theorem cut_tagText (attributes : List QuotedAttribute) :
    (tagText name attributes).takeWhile (fun c => !isSeparator c) = name ∧
    (tagText name attributes).dropWhile (fun c => !isSeparator c) =
      attributes.flatMap QuotedAttribute.source := by
  apply cut_append_of_isPlainName hname
  cases attributes with
  | nil => simp
  | cons entry attributes => simp [QuotedAttribute.source, show isSeparator ' ' = true from rfl]

include hattributes

theorem fitsTag_tagText {inside : Text} (hinside : FitsTag inside) :
    FitsTag (tagText name attributes ++ inside) := by
  rw [tagText, List.append_assoc]
  exact hname.fitsTag (fitsTag_attributes hattributes hinside)

/-- The inside of a start tag does not end in a slash: it ends in the name or in a quote. -/
theorem getLast?_tagText : (tagText name attributes).getLast? ≠ some '/' := by
  obtain rfl | ⟨entries, entry, rfl⟩ := List.eq_nil_or_concat attributes
  · intro hlast
    have hmem := List.mem_of_getLast? hlast
    simp only [tagText, List.flatMap_nil, List.append_nil] at hmem
    exact absurd (hname.isAlphanum _ hmem) (by decide)
  · have hquote := (hattributes entry (by simp)).quote
    have hlast : (tagText name (entries.concat entry)).getLast? = some entry.quote := by
      have hsource : tagText name (entries.concat entry) = tagText name entries ++
          (' ' :: entry.key ++ '=' :: entry.quote :: entry.value) ++ [entry.quote] := by
        simp [tagText, QuotedAttribute.source]
      rw [hsource, List.getLast?_concat]
    rw [hlast]
    rintro hslash
    rw [Option.some.inj hslash] at hquote
    contradiction

variable (hkeys : (attributes.map fun entry => entry.key).Nodup)

include hkeys

theorem readAttributes_tagText :
    readAttributes [] ((tagText name attributes).dropWhile fun c => !isSeparator c) =
      attributes.map QuotedAttribute.toAttribute := by
  rw [(cut_tagText hname attributes).2]
  exact readAttributes_flatMap_source hattributes hkeys

theorem spells_tagText :
    Spells ('<' :: tagText name attributes ++ ['>'])
      (.startTag name (attributes.map QuotedAttribute.toAttribute)) := by
  have hfits : FitsTag (tagText name attributes) := by
    simpa using fitsTag_tagText hname hattributes fitsTag_nil
  have hspells := spells_startTag hfits (head?_append_of_isPlainName hname _)
  have hlast := getLast?_tagText hname hattributes
  have htake := (cut_tagText hname attributes).1
  have hread := readAttributes_tagText hname hattributes hkeys
  have htag : startTag (tagText name attributes) =
      .startTag name (attributes.map QuotedAttribute.toAttribute) := by
    unfold startTag
    split
    · contradiction
    · simp only [htake, hread]
  rwa [htag] at hspells

theorem spells_emptyTagText :
    Spells ('<' :: tagText name attributes ++ "/>".toList)
      (.emptyTag name (attributes.map QuotedAttribute.toAttribute)) := by
  have hfits : FitsTag (tagText name attributes ++ ['/']) :=
    fitsTag_tagText hname hattributes fun s => rfl
  have hhead : ∀ c ∈ (tagText name attributes ++ ['/']).head?, c ≠ '!' ∧ c ≠ '?' ∧ c ≠ '/' := by
    rw [tagText, List.append_assoc]
    exact head?_append_of_isPlainName hname _
  have hspells := spells_startTag hfits hhead
  have htake := (cut_tagText hname attributes).1
  have hread := readAttributes_tagText hname hattributes hkeys
  have htag : startTag (tagText name attributes ++ ['/']) =
      .emptyTag name (attributes.map QuotedAttribute.toAttribute) := by
    simp only [startTag, List.getLast?_concat, List.dropLast_concat, htake, hread]
  rw [htag] at hspells
  simpa using hspells

/-- A key with nothing after it adds no attribute to a start tag, but it can end in a slash. -/
theorem startTag_bareKey {key : Text} (hseparators : ∀ c ∈ key, isSeparator c = false)
    (hequals : '=' ∉ key.tail) :
    startTag (tagText name attributes ++ ' ' :: key) =
        .startTag name (attributes.map QuotedAttribute.toAttribute) ∨
      startTag (tagText name attributes ++ ' ' :: key) =
        .emptyTag name (attributes.map QuotedAttribute.toAttribute) := by
  have hbody {key : Text} (hseparators : ∀ c ∈ key, isSeparator c = false)
      (hequals : '=' ∉ key.tail) :
      (tagText name attributes ++ ' ' :: key).takeWhile (fun c => !isSeparator c) = name ∧
      readAttributes [] ((tagText name attributes ++ ' ' :: key).dropWhile fun c => !isSeparator c) =
        attributes.map QuotedAttribute.toAttribute := by
    have hhead : ∀ c ∈ (attributes.flatMap QuotedAttribute.source ++ ' ' :: key).head?,
        isSeparator c := by
      cases attributes <;> simp [QuotedAttribute.source, show isSeparator ' ' = true from rfl]
    obtain ⟨hname, hrest⟩ := cut_append_of_isPlainName hname hhead
    obtain ⟨later, hread⟩ := exists_readAttributes_flatMap_source_append hattributes hkeys
      (fun _ _ => List.not_mem_nil) (' ' :: key)
    rw [readAttributes_bareKey hseparators hequals, List.append_nil] at hread
    rw [tagText, List.append_assoc, hname, hrest, hread]
    exact ⟨rfl, rfl⟩
  unfold startTag
  split
  · next hslash =>
    have hkey : key ≠ [] := by
      rintro rfl
      simp at hslash
    have hshort := hbody (fun c hc => hseparators c ((List.dropLast_sublist key).mem hc))
      (fun hmem => hequals ((List.dropLast_sublist key.tail).mem (List.tail_dropLast ▸ hmem)))
    rw [List.dropLast_append_of_ne_nil (List.cons_ne_nil _ _), List.dropLast_cons_of_ne_nil hkey]
    exact .inr (congrArg₂ Event.emptyTag hshort.1 hshort.2)
  · have hwhole := hbody hseparators hequals
    exact .inl (congrArg₂ Event.startTag hwhole.1 hwhole.2)

end

theorem spells_endTag_of_isPlainName {name : Text} (hname : IsPlainName name) :
    Spells ('<' :: '/' :: name ++ ['>']) (.endTag name) := by
  have hfits : FitsTag name := by simpa using hname.fitsTag fitsTag_nil
  have htag : endTag name = .endTag name := by
    have hdrop : name.reverse.dropWhile isSeparator = name.reverse := by
      cases hreverse : name.reverse with
      | nil => rfl
      | cons c s =>
        have hc : c ∈ name := by
          rw [← List.mem_reverse, hreverse]
          simp
        have hseparator := isSeparator_of_isAlphanum (hname.isAlphanum c hc)
        rw [List.dropWhile_cons_of_neg (by simp [hseparator])]
    rw [endTag, hdrop, List.reverse_reverse]
    split <;> rfl
  have hspells := spells_endTag hfits
  rwa [htag] at hspells

end PostMarkup.Dialect
