import Mathlib.Data.List.Induction
import PostMarkup.Proofs.Dialect.Brackets

namespace PostMarkup

open Dialect (Bracket)

namespace TextPolicy

variable {σ : Type} (policy : TextPolicy σ)

/-- The state after a tag. -/
def after (state : σ) : Bracket → σ
  | .opening name => policy.opened name state
  | .closing name => policy.closed name state

/-- The state after some tags. -/
def run (tags : List Bracket) : σ := tags.foldl policy.after policy.start

theorem run_append (tags more : List Bracket) :
    policy.run (tags ++ more) = more.foldl policy.after (policy.run tags) :=
  List.foldl_append

theorem run_concat (tags : List Bracket) (tag : Bracket) :
    policy.run (tags ++ [tag]) = policy.after (policy.run tags) tag :=
  policy.run_append tags [tag]

end TextPolicy

namespace SkipSet

variable {skips : SkipSet}

/-- The elements of the set that are open after some tags, innermost first. Other elements do not
    count. There is no answer if the tags of the set are not nested. -/
def opensAfter? (skips : SkipSet) (tags : List Bracket) : Option (List Text) :=
  (tags.filter fun tag => tag.name ∈ skips).foldlM Dialect.opensAfter? []

theorem opensAfter?_concat (tags : List Bracket) (tag : Bracket) :
    skips.opensAfter? (tags ++ [tag]) =
      if tag.name ∈ skips then (skips.opensAfter? tags).bind (Dialect.opensAfter? · tag)
      else skips.opensAfter? tags := by
  unfold opensAfter?
  split
  · next htag =>
    rw [List.filter_append, List.filter_cons_of_pos (by simpa using htag), List.foldlM_append]
    simp
  · next htag =>
    rw [List.filter_append, List.filter_cons_of_neg (by simpa using htag), List.filter_nil,
      List.append_nil]

/-- What one more tag can do to the open elements. -/
theorem exists_of_opensAfter?_concat {tags : List Bracket} {tag : Bracket} {opens : List Text}
    (hopens : skips.opensAfter? (tags ++ [tag]) = some opens) :
    ∃ earlier, skips.opensAfter? tags = some earlier ∧
      (tag.name ∉ skips ∧ opens = earlier ∨
        tag.name ∈ skips ∧ tag = .opening tag.name ∧ opens = tag.name :: earlier ∨
        tag.name ∈ skips ∧ tag = .closing tag.name ∧ earlier = tag.name :: opens) := by
  rw [opensAfter?_concat] at hopens
  split at hopens
  · next htag =>
    obtain ⟨earlier, hearlier, hstep⟩ := Option.bind_eq_some_iff.1 hopens
    refine ⟨earlier, hearlier, .inr ?_⟩
    cases tag with
    | opening name => exact .inl ⟨htag, rfl, (Option.some.inj hstep).symm⟩
    | closing name =>
      refine .inr ⟨htag, rfl, ?_⟩
      cases earlier with
      | nil => contradiction
      | cons innermost outer =>
        simp only [Dialect.opensAfter?] at hstep
        split at hstep
        · next hname =>
          obtain rfl := Option.some.inj hstep
          rw [Bracket.name, hname]
        · contradiction
  · next htag => exact ⟨opens, hopens, .inl ⟨htag, rfl⟩⟩

/-- Tags that nest have done so at every place. -/
theorem exists_opensAfter?_of_append {tags later : List Bracket}
    (hopens : (skips.opensAfter? (tags ++ later)).isSome) :
    ∃ opens, skips.opensAfter? tags = some opens := by
  induction later using List.reverseRecOn with
  | nil => exact Option.isSome_iff_exists.1 (by simpa using hopens)
  | append_singleton later tag ih =>
    obtain ⟨opens, hwhole⟩ := Option.isSome_iff_exists.1 hopens
    rw [← List.append_assoc] at hwhole
    obtain ⟨earlier, hearlier, -⟩ := exists_of_opensAfter?_concat hwhole
    exact ih (by simp [hearlier])

/-- The outermost open element began where no other was open, and its own end tag has not come. -/
theorem exists_outermost {tags : List Bracket} {opens : List Text}
    (hopens : skips.opensAfter? tags = some opens) {outermost : Text}
    (houtermost : outermost ∈ opens.getLast?) :
    ∃ before inside, tags = before ++ .opening outermost :: inside ∧ outermost ∈ skips ∧
      skips.opensAfter? before = some [] ∧ skips.opensAfter? inside = some opens.dropLast := by
  induction tags using List.reverseRecOn generalizing opens with
  | nil =>
    obtain rfl : [] = opens := Option.some.inj hopens
    contradiction
  | append_singleton tags tag ih =>
    obtain ⟨earlier, hearlier, ⟨htag, rfl⟩ | ⟨htag, heq, rfl⟩ | ⟨htag, heq, rfl⟩⟩ :=
      exists_of_opensAfter?_concat hopens
    · obtain ⟨before, inside, rfl, hmem, hbefore, hinside⟩ := ih hearlier houtermost
      refine ⟨before, inside ++ [tag], by simp, hmem, hbefore, ?_⟩
      rw [opensAfter?_concat, if_neg htag, hinside]
    · cases earlier with
      | nil =>
        obtain rfl : tag.name = outermost := by simpa using houtermost
        exact ⟨tags, [], by rw [← heq], htag, hearlier, rfl⟩
      | cons innermost outer =>
        rw [List.getLast?_cons_cons] at houtermost
        obtain ⟨before, inside, rfl, hmem, hbefore, hinside⟩ := ih hearlier houtermost
        refine ⟨before, inside ++ [tag], by simp, hmem, hbefore, ?_⟩
        rw [opensAfter?_concat, if_pos htag, hinside, heq]
        rfl
    · cases opens with
      | nil => contradiction
      | cons innermost outer =>
        have hlast : outermost ∈ (tag.name :: innermost :: outer).getLast? := by
          rwa [List.getLast?_cons_cons]
        obtain ⟨before, inside, rfl, hmem, hbefore, hinside⟩ := ih hearlier hlast
        refine ⟨before, inside ++ [tag], by simp, hmem, hbefore, ?_⟩
        rw [opensAfter?_concat, if_pos htag, hinside, heq]
        simp [Dialect.opensAfter?, Bracket.name]

end SkipSet

namespace TextPolicy

variable {skips : SkipSet}

/-- The holder stays. Without one, an element of the skip set becomes it. -/
theorem holder_opened (name : Text) (zone : SkipZone) :
    ((skipping skips).opened name zone).holder =
      zone.holder.or (if name ∈ skips then some name else none) := by
  obtain ⟨_ | holder⟩ := zone <;> by_cases hname : name ∈ skips <;>
    simp [skipping, SkipZone.enter, hname]

theorem of_mem_holder_opened {name holder : Text} {zone : SkipZone}
    (hholder : holder ∈ ((skipping skips).opened name zone).holder) :
    holder ∈ zone.holder ∨ zone.holder = none ∧ name ∈ skips ∧ holder = name := by
  rw [holder_opened, Option.mem_def, Option.or_eq_some_iff] at hholder
  obtain hheld | ⟨hnone, htaken⟩ := hholder
  · exact .inl hheld
  · obtain ⟨hname, rfl⟩ : name ∈ skips ∧ name = holder := by simpa using htaken
    exact .inr ⟨hnone, hname, rfl⟩

theorem isActive_opened (name : Text) (zone : SkipZone) :
    ((skipping skips).opened name zone).isActive = (zone.isActive || decide (name ∈ skips)) := by
  rw [SkipZone.isActive, holder_opened, Option.isSome_or]
  by_cases hname : name ∈ skips <;> simp [SkipZone.isActive, hname]

theorem holder_closed (name : Text) (zone : SkipZone) :
    ((skipping skips).closed name zone).holder =
      if zone.holder = some name then none else zone.holder := by
  simp only [skipping, SkipZone.exit]
  split <;> rfl

theorem of_mem_holder_closed {name holder : Text} {zone : SkipZone}
    (hholder : holder ∈ ((skipping skips).closed name zone).holder) :
    holder ∈ zone.holder ∧ holder ≠ name := by
  rw [holder_closed] at hholder
  split at hholder
  · contradiction
  · next hother => exact ⟨hholder, fun heq => hother (heq ▸ hholder)⟩

/-- An element leaves the skip zone as it was, unless it has the name of the holder. -/
theorem closed_opened {name : Text} {zone : SkipZone}
    (hholder : ∀ holder ∈ zone.holder, holder ≠ name) :
    (skipping skips).closed name ((skipping skips).opened name zone) = zone := by
  obtain ⟨_ | holder⟩ := zone
  · by_cases hname : name ∈ skips <;> simp [skipping, SkipZone.enter, SkipZone.exit, hname]
  · have hne : holder ≠ name := hholder holder rfl
    by_cases hname : name ∈ skips <;> simp [skipping, SkipZone.enter, SkipZone.exit, hname, hne]

/-- The holder of the zone is open. -/
theorem mem_of_mem_holder {tags : List Bracket} {opens : List Text}
    (hopens : skips.opensAfter? tags = some opens) :
    ∀ holder ∈ ((skipping skips).run tags).holder, holder ∈ opens := by
  induction tags using List.reverseRecOn generalizing opens with
  | nil =>
    intro holder hholder
    contradiction
  | append_singleton tags tag ih =>
    obtain ⟨earlier, hearlier, hstep⟩ := SkipSet.exists_of_opensAfter?_concat hopens
    have hheld := ih hearlier
    rw [run_concat]
    intro holder hholder
    cases tag with
    | opening name =>
      obtain hholder | ⟨-, hname, rfl⟩ := of_mem_holder_opened hholder
      · have hmem := hheld holder hholder
        obtain ⟨-, rfl⟩ | ⟨-, -, rfl⟩ | ⟨-, heq, -⟩ := hstep
        · exact hmem
        · exact List.mem_cons_of_mem name hmem
        · contradiction
      · obtain ⟨htag, -⟩ | ⟨-, -, rfl⟩ | ⟨-, heq, -⟩ := hstep
        · exact absurd hname htag
        · exact List.mem_cons_self
        · contradiction
    | closing name =>
      obtain ⟨hholder, hother⟩ := of_mem_holder_closed hholder
      have hmem := hheld holder hholder
      obtain ⟨-, rfl⟩ | ⟨-, heq, -⟩ | ⟨-, -, rfl⟩ := hstep
      · exact hmem
      · contradiction
      · exact (List.mem_cons.1 hmem).resolve_left hother

/-- The zone stays with its holder as long as no element with the holder's name is closed. -/
theorem holder_foldl_after {holder : Text} {tags : List Bracket} (htags : .closing holder ∉ tags)
    {zone : SkipZone} (hzone : zone.holder = some holder) :
    (tags.foldl (skipping skips).after zone).holder = some holder := by
  induction tags generalizing zone with
  | nil => exact hzone
  | cons tag tags ih =>
    obtain ⟨htag, htags⟩ := not_or.1 (mt List.mem_cons.2 htags)
    refine ih htags ?_
    cases tag with
    | opening name => rw [after, holder_opened, hzone, Option.some_or]
    | closing name =>
      have hname : holder ≠ name := fun heq => htag (heq ▸ rfl)
      rw [after, holder_closed, hzone, if_neg (by simpa using hname)]

theorem typographs_skipping (zone : SkipZone) :
    (skipping skips).typographs zone = zone.holder.isNone := by
  obtain ⟨_ | holder⟩ := zone <;> rfl

/-- At every place in tags of which those of the set nest, text is typographed if no element of the
    set is open, and is not if no namesake inside the outermost open one has been closed. -/
theorem skipping_follows_outermost {tags later : List Bracket}
    (hnested : (skips.opensAfter? (tags ++ later)).isSome) :
    ∃ opens, skips.opensAfter? tags = some opens ∧
      (∀ holder ∈ ((skipping skips).run tags).holder, holder ∈ opens) ∧
      (opens = [] → (skipping skips).typographs ((skipping skips).run tags) = true) ∧
      ∀ outermost ∈ opens.getLast?, ∃ before inside,
        tags = before ++ .opening outermost :: inside ∧
        skips.opensAfter? before = some [] ∧ skips.opensAfter? inside = some opens.dropLast ∧
        (.closing outermost ∉ inside →
          (skipping skips).typographs ((skipping skips).run tags) = false) := by
  have hfree {tags : List Bracket} (hopens : skips.opensAfter? tags = some []) :
      ((skipping skips).run tags).holder = none :=
    Option.eq_none_iff_forall_not_mem.2 fun holder hholder =>
      List.not_mem_nil (mem_of_mem_holder hopens holder hholder)
  obtain ⟨opens, hopens⟩ := SkipSet.exists_opensAfter?_of_append hnested
  refine ⟨opens, hopens, mem_of_mem_holder hopens, ?_, fun outermost houtermost => ?_⟩
  · rintro rfl
    rw [typographs_skipping, hfree hopens, Option.isNone_none]
  · obtain ⟨before, inside, rfl, hmem, hbefore, hinside⟩ :=
      SkipSet.exists_outermost hopens houtermost
    refine ⟨before, inside, rfl, hbefore, hinside, fun hnamesake => ?_⟩
    have htaken : ((skipping skips).after ((skipping skips).run before)
        (.opening outermost)).holder = some outermost := by
      rw [after, holder_opened, hfree hbefore, if_pos hmem, Option.none_or]
    rw [typographs_skipping, run_append, List.foldl_cons, holder_foldl_after hnamesake htaken,
      Option.isNone_some]

theorem skipping_follows_pre_around_code :
    let tags : List Bracket := [.closing "p".toList, .opening "pre".toList, .opening "code".toList,
      .opening "code".toList, .closing "code".toList]
    (SkipSet.html.opensAfter? (tags ++ [.closing "code".toList])).isSome ∧
      SkipSet.html.opensAfter? tags = some ["code".toList, "pre".toList] ∧
      (skipping .html).typographs ((skipping .html).run tags) = false := by
  intro tags
  have hnested : (SkipSet.html.opensAfter? (tags ++ [.closing "code".toList])).isSome := by decide
  have hread : SkipSet.html.opensAfter? tags = some ["code".toList, "pre".toList] := by decide
  obtain ⟨opens, hopens, -, -, houtermost⟩ := skipping_follows_outermost hnested
  obtain rfl := Option.some.inj (hread.symm.trans hopens)
  obtain ⟨before, inside, htags, -, -, hsheltered⟩ := houtermost "pre".toList rfl
  refine ⟨hnested, hread, hsheltered fun hmem => ?_⟩
  have hclosed : .closing "pre".toList ∈ tags := by
    rw [htags]
    exact List.mem_append_right before (List.mem_cons_of_mem _ hmem)
  exact absurd hclosed (by decide)

/-- A closed namesake exposes what follows it. -/
example : (skipping .html).typographs ((skipping .html).run
    [.opening "pre".toList, .opening "pre".toList, .closing "pre".toList]) = true := by
  decide

end TextPolicy

end PostMarkup
