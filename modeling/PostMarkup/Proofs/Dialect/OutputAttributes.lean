import Mathlib.Data.List.Basic
import PostMarkup.Dialect.Conversion
import PostMarkup.Proofs.Attribute

namespace PostMarkup.Dialect

/-- The keys of the attributes that the dialect adds. -/
def addedKeys : List Text := ["class", "style", "itemprop", "href"].map String.toList

theorem quote_not_mem_requote (entry : Attribute) : '"' ∉ (requote entry).value := by
  intro hmem
  obtain ⟨c, -, hc⟩ := List.mem_flatMap.1 hmem
  split at hc
  · exact absurd hc (by decide)
  · next hquote => exact hquote (List.mem_singleton.1 hc).symm

/-- Escaping leaves text alone all of whose characters it leaves alone. -/
theorem flatMap_eq_self {escape : Char → Text} {s : Text} (hs : ∀ c ∈ s, escape c = [c]) :
    s.flatMap escape = s :=
  (List.flatMap_congr hs).trans (List.flatMap_singleton' s)

theorem requote_eq_self {entry : Attribute} (hvalue : '"' ∉ entry.value) : requote entry = entry := by
  refine congrArg (Attribute.mk entry.key) (flatMap_eq_self fun c hc => if_neg ?_)
  rintro rfl
  exact hvalue hc

theorem map_requote_of_forall {attributes : List Attribute}
    (hvalues : ∀ entry ∈ attributes, '"' ∉ entry.value) : attributes.map requote = attributes :=
  (List.map_congr_left fun entry hentry => requote_eq_self (hvalues entry hentry)).trans
    (List.map_id attributes)

theorem mem_defaultAttributes? {source : Text} {entry : Attribute}
    (hentry : entry ∈ (defaultAttributes? source).getD []) :
    entry.key ∈ addedKeys ∧ '"' ∉ entry.value := by
  unfold defaultAttributes? at hentry
  split at hentry
  · obtain rfl := List.mem_singleton.1 hentry
    decide
  · obtain rfl := List.mem_singleton.1 hentry
    decide
  · contradiction

theorem key_of_mem_addClass {name : Text} {attributes : List Attribute} {entry : Attribute}
    (hentry : entry ∈ addClass name attributes) :
    entry.key ∈ addedKeys ∨ entry.key ∈ attributes.map Attribute.key := by
  have hkey : "class".toList ∈ addedKeys := by decide
  obtain rfl | hold | ⟨present, -, rfl⟩ := Attribute.mem_upsert hentry
  · exact .inl hkey
  · exact .inr (List.mem_map_of_mem hold)
  · exact .inl hkey

/-- A class has no quotes. -/
theorem quote_not_mem_addClass {name : Text} (hclass : '"' ∉ name) {attributes : List Attribute}
    (hvalues : ∀ entry ∈ attributes, '"' ∉ entry.value) :
    ∀ entry ∈ addClass name attributes, '"' ∉ entry.value := by
  intro entry hentry
  obtain rfl | hold | ⟨present, hpresent, rfl⟩ := Attribute.mem_upsert hentry
  · exact hclass
  · exact hvalues entry hold
  · simp [hvalues present hpresent, hclass]

namespace Link

theorem mem_resolve {attributes : List Attribute} {entry : Attribute}
    (hentry : entry ∈ resolve attributes) :
    entry = marker ∨ entry ∈ attributes ∨
      ∃ address ∈ (attributes.foldl Target.read {}).href?, entry = ⟨"href".toList, address⟩ := by
  unfold resolve at hentry
  split at hentry
  · next address haddress =>
    obtain hentry | hentry := List.mem_append.1 hentry
    · obtain rfl | hentry := List.mem_cons.1 hentry
      · exact .inl rfl
      · exact .inr (.inl (List.mem_filter.1 (List.mem_filter.1 hentry).1).1)
    · exact .inr (.inr ⟨address, haddress, List.mem_singleton.1 hentry⟩)
  · obtain rfl | hentry := List.mem_cons.1 hentry
    · exact .inl rfl
    · exact .inr (.inl (List.mem_filter.1 hentry).1)

theorem key_of_mem_resolve {attributes : List Attribute} {entry : Attribute}
    (hentry : entry ∈ resolve attributes) :
    entry.key ∈ addedKeys ∨ entry.key ∈ attributes.map Attribute.key := by
  obtain rfl | hold | ⟨address, -, rfl⟩ := mem_resolve hentry
  · exact .inl (by decide)
  · exact .inr (List.mem_map_of_mem hold)
  · exact .inl (by decide : "href".toList ∈ addedKeys)

theorem quote_not_mem_directory (id : Text) : '"' ∉ directory id := by
  unfold directory
  split <;> decide

/-- What an address will be made of has no quotes. -/
def Target.IsQuotable (target : Target) : Prop :=
  (∀ part ∈ target.directory, '"' ∉ part) ∧ '"' ∉ target.file

theorem Target.IsQuotable.read {target : Target} (h : target.IsQuotable) {entry : Attribute}
    (hvalue : '"' ∉ entry.value) : (target.read entry).IsQuotable := by
  obtain ⟨hdirectory, hfile⟩ := h
  unfold Target.read
  split
  · refine ⟨fun part hpart => ?_, hfile⟩
    cases hchosen : target.directory with
    | some chosen =>
      rw [hchosen] at hpart
      exact hdirectory part (hchosen ▸ hpart)
    | none =>
      obtain rfl : Link.directory entry.value = part := by simpa [hchosen] using hpart
      exact quote_not_mem_directory entry.value
  · refine ⟨fun part hpart => ?_, by simp [hvalue]⟩
    obtain rfl : blog = part := by simpa using hpart
    decide
  · exact ⟨hdirectory, hfile⟩

theorem Target.IsQuotable.foldl {target : Target} (h : target.IsQuotable)
    {attributes : List Attribute} (hvalues : ∀ entry ∈ attributes, '"' ∉ entry.value) :
    (attributes.foldl Target.read target).IsQuotable := by
  induction attributes generalizing target with
  | nil => exact h
  | cons entry attributes ih =>
    obtain ⟨hvalue, hvalues⟩ := List.forall_mem_cons.1 hvalues
    exact ih (h.read hvalue) hvalues

theorem quote_not_mem_resolve {attributes : List Attribute}
    (hvalues : ∀ entry ∈ attributes, '"' ∉ entry.value) :
    ∀ entry ∈ resolve attributes, '"' ∉ entry.value := by
  intro entry hentry
  obtain rfl | hold | ⟨address, haddress, rfl⟩ := mem_resolve hentry
  · decide
  · exact hvalues entry hold
  · have hstart : Target.IsQuotable {} := ⟨by simp, by simp⟩
    obtain ⟨hdirectory, hfile⟩ := hstart.foldl hvalues
    obtain ⟨part, hpart, rfl⟩ := Option.map_eq_some_iff.1 haddress
    simp [hdirectory part hpart, hfile]

end Link

theorem key_of_mem_decorate {output : Text} {attributes : List Attribute} {entry : Attribute}
    (hentry : entry ∈ decorate output attributes) :
    entry.key ∈ addedKeys ∨ entry.key ∈ attributes.map Attribute.key := by
  unfold decorate at hentry
  split at hentry
  · exact key_of_mem_addClass hentry
  · exact key_of_mem_addClass hentry
  · exact Link.key_of_mem_resolve hentry
  · exact .inr (List.mem_map_of_mem hentry)

theorem quote_not_mem_decorate (output : Text) {attributes : List Attribute}
    (hvalues : ∀ entry ∈ attributes, '"' ∉ entry.value) :
    ∀ entry ∈ decorate output attributes, '"' ∉ entry.value := by
  unfold decorate
  split
  · exact quote_not_mem_addClass (by decide) hvalues
  · exact quote_not_mem_addClass (by decide) hvalues
  · exact Link.quote_not_mem_resolve hvalues
  · exact hvalues

theorem key_of_mem_outputAttributes {source output : Text} {attributes : List Attribute}
    {entry : Attribute} (hentry : entry ∈ outputAttributes source output attributes) :
    entry.key ∈ addedKeys ∨ entry.key ∈ attributes.map Attribute.key := by
  obtain hadded | hkey := key_of_mem_decorate hentry
  · exact .inl hadded
  · cases attributes with
    | nil =>
      obtain ⟨default, hdefault, hkey⟩ := List.mem_map.1 hkey
      exact .inl (hkey ▸ (mem_defaultAttributes? hdefault).1)
    | cons first attributes =>
      rw [List.map_map] at hkey
      exact .inr hkey

/-- Whatever the values are in the source, each is written so that its quotes hold it. -/
theorem quote_not_mem_outputAttributes (source output : Text) (attributes : List Attribute) :
    ∀ entry ∈ outputAttributes source output attributes, '"' ∉ entry.value := by
  unfold outputAttributes
  apply quote_not_mem_decorate
  cases attributes with
  | nil => exact fun entry hentry => (mem_defaultAttributes? hentry).2
  | cons first attributes =>
    intro requoted hrequoted
    obtain ⟨entry, -, rfl⟩ := List.mem_map.1 hrequoted
    exact quote_not_mem_requote entry

end PostMarkup.Dialect
