import PostMarkup.Attribute

namespace PostMarkup.Attribute

theorem upsert_cons (key : Text) (change : Text → Text) (default : Text) (entry : Attribute)
    (attributes : List Attribute) :
    upsert key change default (entry :: attributes) =
      if entry.key = key then ⟨key, change entry.value⟩ :: attributes
      else entry :: upsert key change default attributes := rfl

theorem set_cons (key value : Text) (entry : Attribute) (attributes : List Attribute) :
    set key value (entry :: attributes) =
      if entry.key = key then ⟨key, value⟩ :: attributes
      else entry :: set key value attributes := rfl

theorem mem_upsert {key default : Text} {change : Text → Text} {attributes : List Attribute}
    {entry : Attribute} (hentry : entry ∈ upsert key change default attributes) :
    entry = ⟨key, default⟩ ∨ entry ∈ attributes ∨
      ∃ present ∈ attributes, entry = ⟨key, change present.value⟩ := by
  induction attributes with
  | nil => exact .inl (List.mem_singleton.1 hentry)
  | cons first attributes ih =>
    rw [upsert_cons] at hentry
    split at hentry
    · obtain rfl | hentry := List.mem_cons.1 hentry
      · exact .inr (.inr ⟨first, by simp, rfl⟩)
      · exact .inr (.inl (List.mem_cons_of_mem first hentry))
    · obtain rfl | hentry := List.mem_cons.1 hentry
      · exact .inr (.inl (by simp))
      · obtain hnew | hold | ⟨present, hpresent, hchanged⟩ := ih hentry
        · exact .inl hnew
        · exact .inr (.inl (List.mem_cons_of_mem first hold))
        · exact .inr (.inr ⟨present, List.mem_cons_of_mem first hpresent, hchanged⟩)

theorem mem_set {key value : Text} {attributes : List Attribute} {entry : Attribute}
    (hentry : entry ∈ set key value attributes) : entry = ⟨key, value⟩ ∨ entry ∈ attributes := by
  obtain hnew | hold | ⟨-, -, hchanged⟩ := mem_upsert hentry
  · exact .inl hnew
  · exact .inr hold
  · exact .inl hchanged

theorem map_key_upsert (key : Text) (change : Text → Text) (default : Text)
    (attributes : List Attribute) :
    (upsert key change default attributes).map Attribute.key =
      if key ∈ attributes.map Attribute.key then attributes.map Attribute.key
      else attributes.map Attribute.key ++ [key] := by
  induction attributes with
  | nil => rfl
  | cons first attributes ih =>
    rw [upsert_cons]
    by_cases hfirst : first.key = key
    · simp [hfirst]
    · have hother : key ≠ first.key := Ne.symm hfirst
      simp only [hfirst, if_false, List.map_cons, ih, List.mem_cons, hother, false_or]
      split <;> rfl

theorem nodup_key_upsert {key default : Text} {change : Text → Text} {attributes : List Attribute}
    (hkeys : (attributes.map Attribute.key).Nodup) :
    ((upsert key change default attributes).map Attribute.key).Nodup := by
  rw [map_key_upsert]
  split
  · exact hkeys
  · next hfresh =>
    rw [List.nodup_append]
    refine ⟨hkeys, by simp, fun other hother last hlast heq => ?_⟩
    obtain rfl := List.mem_singleton.1 hlast
    exact hfresh (heq ▸ hother)

theorem nodup_key_set {key value : Text} {attributes : List Attribute}
    (hkeys : (attributes.map Attribute.key).Nodup) :
    ((set key value attributes).map Attribute.key).Nodup :=
  nodup_key_upsert hkeys

/-- Where keys are distinct the value that is set is the only one. -/
theorem filter_key_set {key value : Text} {attributes : List Attribute}
    (hkeys : (attributes.map Attribute.key).Nodup) :
    (set key value attributes).filter (·.key = key) = [⟨key, value⟩] := by
  induction attributes with
  | nil => simp [set, upsert]
  | cons first attributes ih =>
    obtain ⟨hfresh, hkeys⟩ := List.nodup_cons.1 hkeys
    rw [set_cons]
    by_cases hfirst : first.key = key
    · have hnone : attributes.filter (·.key = key) = [] := by
        rw [List.filter_eq_nil_iff]
        intro entry hentry heq
        have hsame : entry.key = first.key := by simpa [hfirst] using heq
        exact hfresh (hsame ▸ List.mem_map_of_mem hentry)
      simp [hfirst, hnone]
    · simp [hfirst, ih hkeys]

end PostMarkup.Attribute
