import PostMarkup.Proofs.Html.WrittenTag

namespace PostMarkup.Html

theorem null_not_mem_decodeValue (s : Text) : '\x00' ∉ decodeValue s := by
  fun_induction decodeValue s with
  | case1 => simp
  | case2 s found ih => simp [ih, found, Reference.null_not_mem_read]
  | case3 c s hc ih =>
    have hne : '\x00' ≠ visible c := by
      unfold visible
      split
      · decide
      · next hc => exact Ne.symm hc
    simp [ih, hne]

theorem suffix_of_upTo? {mark s before rest : Text} (hcut : Text.upTo? mark s = some (before, rest)) :
    rest <:+ s :=
  ⟨before ++ mark, (Text.append_of_upTo? hcut).symm⟩

theorem suffix_of_readValue? {s value rest : Text} (hread : readValue? s = some (value, rest)) :
    rest <:+ s := by
  have hblank := List.dropWhile_suffix isTagBlank (l := s)
  simp only [readValue?] at hread
  split at hread
  · contradiction
  · next c t heq =>
    rw [heq] at hblank
    split at hread
    · exact ((suffix_of_upTo? hread).trans (List.suffix_cons c t)).trans hblank
    · simp only [Option.some.injEq, Prod.mk.injEq] at hread
      obtain ⟨-, rfl⟩ := hread
      exact (List.dropWhile_suffix _).trans hblank

theorem endsName_of_not {c : Char} (hangle : c ≠ '>')
    (hc : ¬ (decide (c = '/') || isTagBlank c) = true) : endsName c = false := by
  simp only [Bool.or_eq_true, decide_eq_true_eq, not_or] at hc
  obtain ⟨hslash, hblank⟩ := hc
  simp [endsName, hangle, hslash, hblank]

/-- The attributes of a tag have keys and values that can be written, and a tag is read up to a
    place in the text. -/
theorem of_readTagEnd? {s : Text} {tag : TagEnd} (hs : '\r' ∉ s) (hread : readTagEnd? s = some tag) :
    (∀ entry ∈ tag.attributes, IsKey entry.key ∧ '\x00' ∉ entry.value) ∧ tag.rest <:+ s := by
  fun_induction readTagEnd? s generalizing tag
  · contradiction
  · obtain rfl := Option.some.inj hread
    exact ⟨by simp, List.suffix_cons _ _⟩
  · obtain rfl := Option.some.inj hread
    exact ⟨by simp, (List.suffix_cons _ _).trans (List.suffix_cons _ _)⟩
  · next c s _ _ _ ih =>
    obtain ⟨hattributes, hrest⟩ := ih (fun hmem => hs (by simp [hmem])) hread
    exact ⟨hattributes, hrest.trans (List.suffix_cons c s)⟩
  · next c s hangle _ hc inKey _ _ hkey value _ hvalue ih =>
    obtain ⟨later, hlater, rfl⟩ := Option.map_eq_some_iff.1 hread
    have hinside := (List.dropWhile_suffix isTagBlank).trans (List.dropWhile_suffix inKey (l := s))
    rw [hkey] at hinside
    have hsuffix := ((suffix_of_readValue? hvalue).trans (List.suffix_cons _ _)).trans hinside
    obtain ⟨hattributes, hrest⟩ :=
      ih (fun hmem => hs (List.mem_cons_of_mem c (hsuffix.subset hmem))) hlater
    refine ⟨List.forall_mem_cons.2 ⟨⟨?_, null_not_mem_decodeValue value⟩, hattributes⟩,
      hrest.trans (hsuffix.trans (List.suffix_cons c s))⟩
    exact isKey_foldName hs (endsName_of_not hangle hc)
  · contradiction
  · next c s hangle _ hc inKey _ _ ih =>
    obtain ⟨later, hlater, rfl⟩ := Option.map_eq_some_iff.1 hread
    have hsuffix := (List.dropWhile_suffix isTagBlank).trans (List.dropWhile_suffix inKey (l := s))
    obtain ⟨hattributes, hrest⟩ :=
      ih (fun hmem => hs (List.mem_cons_of_mem c (hsuffix.subset hmem))) hlater
    refine ⟨List.forall_mem_cons.2 ⟨⟨?_, by simp⟩, hattributes⟩,
      hrest.trans (hsuffix.trans (List.suffix_cons c s))⟩
    exact isKey_foldName hs (endsName_of_not hangle hc)

theorem nodup_distinctKeys (seen : List Text) (attributes : List Attribute) :
    ((distinctKeys seen attributes).map Attribute.key).Nodup ∧
      ∀ entry ∈ distinctKeys seen attributes, entry.key ∉ seen ∧ entry ∈ attributes := by
  induction attributes generalizing seen with
  | nil => simp [distinctKeys]
  | cons entry attributes ih =>
    unfold distinctKeys
    split
    · obtain ⟨hnodup, hmem⟩ := ih seen
      exact ⟨hnodup, fun other hother => ⟨(hmem other hother).1, by simp [hmem other hother]⟩⟩
    · next hseen =>
      obtain ⟨hnodup, hmem⟩ := ih (entry.key :: seen)
      refine ⟨List.nodup_cons.2 ⟨fun hkey => ?_, hnodup⟩, fun other hother => ?_⟩
      · obtain ⟨other, hother, heq⟩ := List.mem_map.1 hkey
        exact (hmem other hother).1 (by simp [heq])
      · obtain rfl | hother := List.mem_cons.1 hother
        · exact ⟨hseen, by simp⟩
        · obtain ⟨hfresh, hmem⟩ := hmem other hother
          exact ⟨fun hold => hfresh (by simp [hold]), by simp [hmem]⟩

theorem distinctKeys_of_nodup {seen : List Text} {attributes : List Attribute}
    (hkeys : (attributes.map Attribute.key).Nodup) (hseen : ∀ entry ∈ attributes, entry.key ∉ seen) :
    distinctKeys seen attributes = attributes := by
  induction attributes generalizing seen with
  | nil => rfl
  | cons entry attributes ih =>
    obtain ⟨hfresh, hkeys⟩ := List.nodup_cons.1 hkeys
    rw [distinctKeys, if_neg (hseen entry (by simp)), ih hkeys]
    intro other hother hmem
    obtain heq | hmem := List.mem_cons.1 hmem
    · exact hfresh (List.mem_map.2 ⟨other, hother, heq⟩)
    · exact hseen other (by simp [hother]) hmem

/-- A tag that is read at a letter can be written, and the text after it has been in the text. -/
theorem of_readTag? {s : Text} {tag : Tag} (hs : '\r' ∉ s) (hletter : s.head?.any Char.isAlpha)
    (hread : readTag? s = some tag) :
    WellFormedTag tag.name (distinctKeys [] tag.attributes) ∧ tag.rest <:+ s := by
  obtain ⟨tagEnd, hend, rfl⟩ := Option.map_eq_some_iff.1 hread
  have hsuffix := List.dropWhile_suffix (fun c => !endsName c) (l := s)
  obtain ⟨hattributes, hrest⟩ := of_readTagEnd? (fun hmem => hs (hsuffix.subset hmem)) hend
  obtain ⟨hnodup, hmem⟩ := nodup_distinctKeys [] tagEnd.attributes
  refine ⟨⟨isTagName_of_isAlpha hs hletter, fun entry hentry => ?_, fun entry hentry => ?_, hnodup⟩,
    hrest.trans hsuffix⟩
  · exact (hattributes entry (hmem entry hentry).2).1
  · exact (hattributes entry (hmem entry hentry).2).2

end PostMarkup.Html
