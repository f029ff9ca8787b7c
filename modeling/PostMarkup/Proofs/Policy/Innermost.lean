import Mathlib.Data.List.Infix
import PostMarkup.Proofs.Policy.SkipZone

namespace PostMarkup

open Dialect (Bracket)

/-- Careless HTML, as it is meant. -/
inductive TagSoup
  | nil
  /-- An element with both tags. -/
  | element (name : Text) (inside after : TagSoup)
  /-- An element whose end tag is left out. All that follows is inside it, up to the end tag of the
      nearest element around it that has one, or to the end of the input. -/
  | unclosed (name : Text) (inside : TagSoup)
  /-- The start tag of a void element, which never has an end tag. -/
  | void (name : Text) (after : TagSoup)
  /-- An end tag that closes nothing. -/
  | stray (name : Text) (after : TagSoup)

namespace TagSoup

def tags : TagSoup → List Bracket
  | nil => []
  | element name inside after => .opening name :: inside.tags ++ .closing name :: after.tags
  | unclosed name inside => .opening name :: inside.tags
  | void name after => .opening name :: after.tags
  | stray name after => .closing name :: after.tags

/-- The open elements before the first tag and after each one, innermost first. Void elements are
    never open. -/
def points (opens : List Text) : TagSoup → List (List Text)
  | nil => [opens]
  | element name inside after => opens :: inside.points (name :: opens) ++ after.points opens
  | unclosed name inside => opens :: inside.points (name :: opens)
  | void _ after => opens :: after.points opens
  | stray _ after => opens :: after.points opens

/-- Each element with both tags: the tags before it, and the tags from its own start tag to its end
    tag. -/
def elements (before : List Bracket) : TagSoup → List (List Bracket × List Bracket)
  | nil => []
  | element name inside after =>
    let own := .opening name :: inside.tags ++ [.closing name]
    (before, own) :: inside.elements (before ++ [.opening name]) ++ after.elements (before ++ own)
  | unclosed name inside => inside.elements (before ++ [.opening name])
  | void name after => after.elements (before ++ [.opening name])
  | stray name after => after.elements (before ++ [.closing name])

/-- The names fit the parts that they stand in, given the open elements and the name of the nearest
    element around that has an end tag. An element without one has another name than that, and a stray
    end tag names no open element. -/
def WellFormed (opens : List Text) (closer : Option Text) : TagSoup → Prop
  | nil => True
  | element name inside after => name ∉ voidElements ∧
    inside.WellFormed (name :: opens) (some name) ∧ after.WellFormed opens closer
  | unclosed name inside => name ∉ voidElements ∧ closer ≠ some name ∧
    inside.WellFormed (name :: opens) closer
  | void name after => name ∈ voidElements ∧ after.WellFormed opens closer
  | stray name after => name ∉ opens ∧ after.WellFormed opens closer

instance (opens : List Text) (closer : Option Text) :
    (soup : TagSoup) → Decidable (soup.WellFormed opens closer)
  | nil => inferInstanceAs (Decidable True)
  | element name inside after =>
    have := instDecidableWellFormed (name :: opens) (some name) inside
    have := instDecidableWellFormed opens closer after
    inferInstanceAs (Decidable (_ ∧ _ ∧ _))
  | unclosed name inside =>
    have := instDecidableWellFormed (name :: opens) closer inside
    inferInstanceAs (Decidable (_ ∧ _ ∧ _))
  | void _ after =>
    have := instDecidableWellFormed opens closer after
    inferInstanceAs (Decidable (_ ∧ _))
  | stray _ after =>
    have := instDecidableWellFormed opens closer after
    inferInstanceAs (Decidable (_ ∧ _))

/-- The elements that the end of the markup leaves open, innermost first. -/
def left : TagSoup → List Text
  | nil => []
  | element _ _ after => after.left
  | unclosed name inside => inside.left ++ [name]
  | void _ after => after.left
  | stray _ after => after.left

end TagSoup

theorem closeNearest_of_not_mem {name : Text} {opens : List Text} (hname : name ∉ opens) :
    closeNearest name opens = opens :=
  if_neg hname

/-- An end tag closes its element and what has been left open inside it. -/
theorem closeNearest_append {name : Text} {left : List Text} (hleft : name ∉ left)
    (opens : List Text) : closeNearest name (left ++ name :: opens) = opens := by
  have hinside : ∀ other ∈ left, decide (other ≠ name) = true := by
    intro other hother
    simpa using fun heq : other = name => hleft (heq ▸ hother)
  rw [closeNearest, if_pos (by simp), List.dropWhile_append_of_pos hinside,
    List.dropWhile_cons_of_neg (by simp), List.tail_cons]

namespace TagSoup

open TextPolicy (innermost)

variable {soup : TagSoup} {opens : List Text} {closer : Option Text}

theorem ne_closer_of_mem_left (h : soup.WellFormed opens closer) :
    ∀ name ∈ soup.left, closer ≠ some name := by
  induction soup generalizing opens with
  | nil => simp [left]
  | element name inside after _ ih => exact ih h.2.2
  | unclosed name inside ih =>
    obtain ⟨-, hname, hinside⟩ := h
    exact List.forall_mem_append.2 ⟨ih hinside, by simpa using hname⟩
  | void name after ih => exact ih h.2
  | stray name after ih => exact ih h.2

theorem after_opening {name : Text} (hname : name ∉ voidElements) (opens : List Text) :
    innermost.after opens (.opening name) = name :: opens :=
  if_neg hname

theorem after_opening_void {name : Text} (hname : name ∈ voidElements) (opens : List Text) :
    innermost.after opens (.opening name) = opens :=
  if_pos hname

/-- An end tag that names no open element is passed over. -/
theorem after_closing_stray {name : Text} (hname : name ∉ opens) :
    innermost.after opens (.closing name) = opens :=
  closeNearest_of_not_mem hname

theorem after_closing {name : Text} {inside : TagSoup}
    (hinside : inside.WellFormed (name :: opens) (some name)) :
    innermost.after (inside.left ++ name :: opens) (.closing name) = opens :=
  closeNearest_append (fun hmem => ne_closer_of_mem_left hinside name hmem rfl) opens

/-- The tags of some markup add to the open elements what the markup leaves open. -/
theorem foldl_after_tags (h : soup.WellFormed opens closer) :
    soup.tags.foldl innermost.after opens = soup.left ++ opens := by
  induction soup generalizing opens closer with
  | nil => rfl
  | element name inside after ihinside ihafter =>
    obtain ⟨hname, hinside, hafter⟩ := h
    rw [tags, List.cons_append, List.foldl_cons, after_opening hname, List.foldl_append,
      ihinside hinside, List.foldl_cons, after_closing hinside, ihafter hafter, left]
  | unclosed name inside ih =>
    obtain ⟨hname, -, hinside⟩ := h
    rw [tags, List.foldl_cons, after_opening hname, ih hinside, left, List.append_assoc,
      List.singleton_append]
  | void name after ih =>
    rw [tags, List.foldl_cons, after_opening_void h.1, ih h.2, left]
  | stray name after ih =>
    rw [tags, List.foldl_cons, after_closing_stray h.1, ih h.2, left]

/-- The policy has those elements open at every point that are meant to be. -/
theorem scanl_after_tags (h : soup.WellFormed opens closer) :
    soup.tags.scanl innermost.after opens = soup.points opens := by
  induction soup generalizing opens closer with
  | nil => rfl
  | element name inside after ihinside ihafter =>
    obtain ⟨hname, hinside, hafter⟩ := h
    rw [tags, List.cons_append, List.scanl_cons, after_opening hname, List.scanl_append,
      ihinside hinside, foldl_after_tags hinside, List.scanl_cons, after_closing hinside,
      List.tail_cons, ihafter hafter]
    rfl
  | unclosed name inside ih =>
    obtain ⟨hname, -, hinside⟩ := h
    rw [tags, List.scanl_cons, after_opening hname, ih hinside, points]
  | void name after ih =>
    rw [tags, List.scanl_cons, after_opening_void h.1, ih h.2, points]
  | stray name after ih =>
    rw [tags, List.scanl_cons, after_closing_stray h.1, ih h.2, points]

/-- An element with both tags stands among the tags, and leaves the policy as it was. -/
theorem run_of_mem_elements (h : soup.WellFormed opens closer) {earlier : List Bracket}
    (hearlier : innermost.run earlier = opens) :
    ∀ entry ∈ soup.elements earlier, entry.1 ++ entry.2 <+: earlier ++ soup.tags ∧
      innermost.run (entry.1 ++ entry.2) = innermost.run entry.1 := by
  induction soup generalizing opens closer earlier with
  | nil => simp [elements]
  | element name inside after ihinside ihafter =>
    obtain ⟨hname, hinside, hafter⟩ := h
    have hstart : innermost.run (earlier ++ [.opening name]) = name :: opens := by
      rw [TextPolicy.run_concat, hearlier, after_opening hname]
    have hown : innermost.run (earlier ++ (.opening name :: inside.tags ++ [.closing name])) =
        opens := by
      rw [TextPolicy.run_append, hearlier, List.cons_append, List.foldl_cons, after_opening hname,
        List.foldl_append, foldl_after_tags hinside, List.foldl_cons, after_closing hinside,
        List.foldl_nil]
    simp only [elements, List.cons_append, List.forall_mem_cons, List.forall_mem_append]
    refine ⟨⟨?_, hown.trans hearlier.symm⟩, fun entry hentry => ?_, fun entry hentry => ?_⟩
    · simp [tags]
    · obtain ⟨hhead, hrun⟩ := ihinside hinside hstart entry hentry
      exact ⟨hhead.trans (by simp [tags]), hrun⟩
    · obtain ⟨hhead, hrun⟩ := ihafter hafter hown entry hentry
      exact ⟨by simpa [tags] using hhead, hrun⟩
  | unclosed name inside ih =>
    obtain ⟨hname, -, hinside⟩ := h
    have hstart : innermost.run (earlier ++ [.opening name]) = name :: opens := by
      rw [TextPolicy.run_concat, hearlier, after_opening hname]
    simpa [elements, tags] using ih hinside hstart
  | void name after ih =>
    have hstart : innermost.run (earlier ++ [.opening name]) = opens := by
      rw [TextPolicy.run_concat, hearlier, after_opening_void h.1]
    simpa [elements, tags] using ih h.2 hstart
  | stray name after ih =>
    have hstart : innermost.run (earlier ++ [.closing name]) = opens := by
      rw [TextPolicy.run_concat, hearlier, after_closing_stray h.1]
    simpa [elements, tags] using ih h.2 hstart

/-- At every point of careless HTML text is typographed just if an element is open and the innermost
    one is an inline element. An element with both tags leaves the policy as it was. -/
theorem innermost_follows_open_elements (soup : TagSoup) (h : soup.WellFormed [] none) :
    (soup.points []).length = soup.tags.length + 1 ∧
      (∀ i opens, (soup.points [])[i]? = some opens →
        (innermost.typographs (innermost.run (soup.tags.take i)) = true ↔
          ∃ name outer, opens = name :: outer ∧ name ∈ inlineElements)) ∧
      ∀ before own, (before, own) ∈ soup.elements [] → before ++ own <+: soup.tags ∧
        innermost.run (before ++ own) = innermost.run before := by
  have hpoints := scanl_after_tags h
  refine ⟨?_, fun i opens hopens => ?_, fun before own hentry => ?_⟩
  · rw [← hpoints, List.length_scanl]
  · have hrun : innermost.run (soup.tags.take i) = opens := by
      rw [← hpoints, List.getElem?_scanl] at hopens
      split at hopens
      · exact Option.some.inj hopens
      · contradiction
    rw [hrun]
    cases opens with
    | nil => simp [innermost]
    | cons name outer => simp [innermost]
  · simpa using run_of_mem_elements h rfl (before, own) hentry

theorem innermost_follows_list_items_without_end_tags :
    let items := element "ul".toList (unclosed "li".toList nil) (void "br".toList nil)
    let soup := element "ul".toList (unclosed "li".toList items)
      (stray "p".toList (unclosed "p".toList nil))
    soup.WellFormed [] none ∧
      innermost.typographs (innermost.run (soup.tags.take 4)) = true ∧
      innermost.typographs (innermost.run (soup.tags.take 7)) = false ∧
      innermost.run (soup.tags.take 5) = innermost.run (soup.tags.take 2) := by
  intro items soup
  have h : soup.WellFormed [] none := by decide
  obtain ⟨-, htypographs, helement⟩ := innermost_follows_open_elements soup h
  refine ⟨h, (htypographs 4 ["li".toList, "ul".toList, "li".toList, "ul".toList] rfl).2
    ⟨_, _, rfl, by decide⟩, ?_, ?_⟩
  · have hnone : ¬innermost.typographs (innermost.run (soup.tags.take 7)) = true := by
      rw [htypographs 7 [] rfl]
      rintro ⟨name, outer, heq, -⟩
      contradiction
    simpa using hnone
  · have hitems : (soup.tags.take 2, items.tags.take 3) ∈ soup.elements [] := by decide
    exact (helement _ _ hitems).2

end TagSoup

end PostMarkup
