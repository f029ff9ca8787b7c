import Mathlib.Data.List.Perm.Basic
import PostMarkup.Dialect.Decoration

namespace PostMarkup.Dialect.Link

/-- The value of the first attribute with a key. -/
def value? (key : Text) (attributes : List Attribute) : Option Text :=
  (attributes.find? (·.key = key)).map Attribute.value

/-- The address that a list of attributes names: the file of a post if there is one, and else the
    directory of a section. -/
def address? (attributes : List Attribute) : Option Text :=
  match value? "name".toList attributes, value? "id".toList attributes with
  | some name, _ => some (blog ++ name ++ ".html".toList)
  | none, some id => some (directory id)
  | none, none => none

/-- Attributes that do not name the target. -/
def others (attributes : List Attribute) : List Attribute :=
  attributes.filter fun entry => entry.key ≠ "id".toList && entry.key ≠ "name".toList

section

variable {key value : Text} {attributes permuted : List Attribute}

theorem value?_cons (entry : Attribute) (attributes : List Attribute) :
    value? key (entry :: attributes) =
      if entry.key = key then some entry.value else value? key attributes := by
  unfold value?
  rw [List.find?_cons]
  by_cases hkey : entry.key = key <;> simp [hkey]

theorem value?_eq_none_iff : value? key attributes = none ↔ key ∉ attributes.map Attribute.key := by
  simp [value?]

/-- Where keys are distinct the first attribute with a key is the only one. -/
theorem value?_eq_some_iff (hkeys : (attributes.map Attribute.key).Nodup) :
    value? key attributes = some value ↔ ⟨key, value⟩ ∈ attributes := by
  induction attributes with
  | nil => simp [value?]
  | cons entry attributes ih =>
    obtain ⟨first, present⟩ := entry
    obtain ⟨hfresh, hrest⟩ := List.nodup_cons.1 hkeys
    rw [value?_cons, List.mem_cons, Attribute.mk.injEq]
    by_cases hkey : first = key
    · subst hkey
      have hother : ⟨first, value⟩ ∉ attributes := fun hmem =>
        hfresh (List.mem_map.2 ⟨⟨first, value⟩, hmem, rfl⟩)
      simp [hother, eq_comm]
    · simp [hkey, Ne.symm hkey, ih hrest]

theorem value?_perm (hkeys : (attributes.map Attribute.key).Nodup)
    (hperm : permuted.Perm attributes) : value? key permuted = value? key attributes := by
  have hpermuted : (permuted.map Attribute.key).Nodup :=
    (hperm.map Attribute.key).nodup_iff.2 hkeys
  apply Option.ext
  intro value
  rw [value?_eq_some_iff hpermuted, value?_eq_some_iff hkeys, hperm.mem_iff]

theorem address?_perm (hkeys : (attributes.map Attribute.key).Nodup)
    (hperm : permuted.Perm attributes) : address? permuted = address? attributes := by
  unfold address?
  rw [value?_perm hkeys hperm, value?_perm hkeys hperm]

theorem read_name (target : Target) (name : Text) :
    target.read ⟨"name".toList, name⟩ = ⟨some blog, name ++ ".html".toList⟩ := rfl

theorem read_id (target : Target) (id : Text) :
    target.read ⟨"id".toList, id⟩ =
      { target with directory := target.directory <|> some (directory id) } := rfl

theorem read_of_ne {entry : Attribute} (hid : entry.key ≠ "id".toList)
    (hname : entry.key ≠ "name".toList) (target : Target) : target.read entry = target := by
  unfold Target.read
  split
  · next hkey => exact absurd (by simpa using congrArg String.toList hkey) hid
  · next hkey => exact absurd (by simpa using congrArg String.toList hkey) hname
  · rfl

/-- Without a `name` the first `id` gives the directory, unless there is one already. -/
theorem foldl_read_of_not_mem (hname : "name".toList ∉ attributes.map Attribute.key)
    (target : Target) :
    attributes.foldl Target.read target =
      ⟨target.directory <|> (value? "id".toList attributes).map directory, target.file⟩ := by
  induction attributes generalizing target with
  | nil => simp [value?]
  | cons entry attributes ih =>
    obtain ⟨key, value⟩ := entry
    rw [List.map_cons, List.mem_cons, not_or] at hname
    rw [List.foldl_cons, ih hname.2, value?_cons]
    by_cases hid : key = "id".toList
    · subst hid
      rw [read_id, if_pos rfl]
      cases target.directory <;> rfl
    · rw [read_of_ne hid (Ne.symm hname.1), if_neg hid]

/-- The last `name` gives the file, and then no `id` is asked. -/
theorem foldl_read_of_name {name : Text} {front back : List Attribute}
    (hname : "name".toList ∉ back.map Attribute.key) (target : Target) :
    (front ++ ⟨"name".toList, name⟩ :: back).foldl Target.read target =
      ⟨some blog, name ++ ".html".toList⟩ := by
  rw [List.foldl_append, List.foldl_cons, read_name, foldl_read_of_not_mem hname]
  rfl

theorem href?_foldl_read (hkeys : (attributes.map Attribute.key).Nodup) :
    (attributes.foldl Target.read {}).href? = address? attributes := by
  unfold address?
  cases hname : value? "name".toList attributes with
  | some name =>
    obtain ⟨front, back, rfl⟩ := List.append_of_mem ((value?_eq_some_iff hkeys).1 hname)
    have hback : "name".toList ∉ back.map Attribute.key := by
      rw [List.map_append, List.map_cons, List.nodup_append, List.nodup_cons] at hkeys
      exact hkeys.2.1.1
    rw [foldl_read_of_name hback]
    simp [Target.href?]
  | none =>
    rw [foldl_read_of_not_mem (value?_eq_none_iff.1 hname)]
    cases value? "id".toList attributes <;> simp [Target.href?]

/-- What is kept beside the marker and the computed address. -/
def kept (attributes : List Attribute) : List Attribute :=
  if (address? attributes).isSome then
    (others attributes).filter fun entry => entry.key ≠ "href".toList
  else others attributes

theorem resolve_eq (hkeys : (attributes.map Attribute.key).Nodup) :
    resolve attributes =
      marker :: kept attributes ++
        (address? attributes).toList.map fun address => ⟨"href".toList, address⟩ := by
  unfold resolve kept
  rw [href?_foldl_read hkeys]
  cases address? attributes with
  | some address => rfl
  | none => exact (List.append_nil _).symm

theorem address?_of_name {name : Text} (hkeys : (attributes.map Attribute.key).Nodup)
    (hname : ⟨"name".toList, name⟩ ∈ attributes) :
    address? attributes = some ("/blog/".toList ++ name ++ ".html".toList) := by
  unfold address?
  rw [(value?_eq_some_iff hkeys).2 hname]
  rfl

theorem address?_of_id {id : Text} (hkeys : (attributes.map Attribute.key).Nodup)
    (hid : ⟨"id".toList, id⟩ ∈ attributes)
    (hname : "name".toList ∉ attributes.map Attribute.key) :
    address? attributes = some (directory id) := by
  unfold address?
  rw [(value?_eq_some_iff hkeys).2 hid, value?_eq_none_iff.2 hname]

theorem address?_eq_none (hid : "id".toList ∉ attributes.map Attribute.key)
    (hname : "name".toList ∉ attributes.map Attribute.key) : address? attributes = none := by
  unfold address?
  rw [value?_eq_none_iff.2 hid, value?_eq_none_iff.2 hname]

theorem others_eq_self (hid : "id".toList ∉ attributes.map Attribute.key)
    (hname : "name".toList ∉ attributes.map Attribute.key) : others attributes = attributes := by
  rw [others, List.filter_eq_self]
  intro entry hentry
  have hkey : entry.key ∈ attributes.map Attribute.key := List.mem_map_of_mem hentry
  have hkeyId : entry.key ≠ "id".toList := fun heq => hid (heq ▸ hkey)
  have hkeyName : entry.key ≠ "name".toList := fun heq => hname (heq ▸ hkey)
  exact Bool.and_eq_true_iff.2 ⟨decide_eq_true hkeyId, decide_eq_true hkeyName⟩

theorem kept_sublist (attributes : List Attribute) : (kept attributes).Sublist attributes := by
  unfold kept
  split
  · exact List.filter_sublist.trans List.filter_sublist
  · exact List.filter_sublist

theorem kept_perm (hkeys : (attributes.map Attribute.key).Nodup)
    (hperm : permuted.Perm attributes) : (kept permuted).Perm (kept attributes) := by
  unfold kept
  rw [address?_perm hkeys hperm]
  split
  · exact (hperm.filter _).filter _
  · exact hperm.filter _

/-- A link with distinct keys is written with the marker, the attributes that it keeps in their order,
    and at the end the address of the target if it names one. The address is that of the post if there
    is a `name`, wherever it stands, and else that of the section. So only the order of the attributes
    that are kept shows in what is written. -/
theorem resolve_of_nodup_key (hkeys : (attributes.map Attribute.key).Nodup) :
    (∀ name, ⟨"name".toList, name⟩ ∈ attributes →
      resolve attributes =
        marker :: (others attributes).filter (fun entry => entry.key ≠ "href".toList) ++
          [⟨"href".toList, "/blog/".toList ++ name ++ ".html".toList⟩]) ∧
    (∀ id, ⟨"id".toList, id⟩ ∈ attributes → "name".toList ∉ attributes.map Attribute.key →
      resolve attributes =
        marker :: (others attributes).filter (fun entry => entry.key ≠ "href".toList) ++
          [⟨"href".toList, directory id⟩]) ∧
    ("id".toList ∉ attributes.map Attribute.key → "name".toList ∉ attributes.map Attribute.key →
      resolve attributes = marker :: attributes) ∧
    (∀ moved, moved.Perm attributes → others moved = others attributes →
      resolve moved = resolve attributes) ∧
    ∃ computed, resolve attributes = marker :: kept attributes ++ computed ∧
      (kept attributes).Sublist attributes ∧
      ∀ permuted, permuted.Perm attributes →
        resolve permuted = marker :: kept permuted ++ computed ∧
          (kept permuted).Sublist permuted ∧ (kept permuted).Perm (kept attributes) := by
  have hresolve {permuted : List Attribute} (hperm : permuted.Perm attributes) :
      resolve permuted =
        marker :: kept permuted ++
          (address? attributes).toList.map fun address => ⟨"href".toList, address⟩ := by
    rw [resolve_eq ((hperm.map Attribute.key).nodup_iff.2 hkeys), address?_perm hkeys hperm]
  refine ⟨fun name hname => ?_, fun id hid hname => ?_, fun hid hname => ?_,
    fun moved hperm hothers => ?_, _, resolve_eq hkeys, kept_sublist attributes,
    fun permuted hperm => ⟨hresolve hperm, kept_sublist permuted, kept_perm hkeys hperm⟩⟩
  · rw [resolve_eq hkeys, kept, address?_of_name hkeys hname]
    rfl
  · rw [resolve_eq hkeys, kept, address?_of_id hkeys hid hname]
    rfl
  · rw [resolve_eq hkeys, kept, address?_eq_none hid hname, others_eq_self hid hname]
    exact List.append_nil _
  · rw [hresolve hperm, resolve_eq hkeys, kept, kept, address?_perm hkeys hperm, hothers]

/-- A link with a written address, a post and a section, in two orders. -/
theorem resolve_post_and_section :
    resolve
        [⟨"name".toList, "10".toList⟩, ⟨"title".toList, "t".toList⟩, ⟨"href".toList, "#".toList⟩,
          ⟨"id".toList, "1".toList⟩] =
      [marker, ⟨"title".toList, "t".toList⟩, ⟨"href".toList, "/blog/10.html".toList⟩] ∧
    resolve
        [⟨"title".toList, "t".toList⟩, ⟨"id".toList, "1".toList⟩, ⟨"href".toList, "#".toList⟩,
          ⟨"name".toList, "10".toList⟩] =
      resolve
        [⟨"name".toList, "10".toList⟩, ⟨"title".toList, "t".toList⟩, ⟨"href".toList, "#".toList⟩,
          ⟨"id".toList, "1".toList⟩] :=
  ⟨(resolve_of_nodup_key (by decide)).1 "10".toList (by decide),
    (resolve_of_nodup_key (by decide)).2.2.2.1 _ (by decide) (by decide)⟩

end

end PostMarkup.Dialect.Link
