import Mathlib.Data.List.Nodup

/-!
# Lists threaded through link functions

An intrusive list stores its links beside the elements. `LinkPath next first elements last` says
that following `next` from `first` visits `elements` and arrives at `last`. A doubly linked list
is one path in each direction.
-/

namespace CupidOs.Lists

open Function List

universe u

variable {α : Type u}

/-- Following `next` from `first` visits `elements` and arrives at `last`. -/
def LinkPath (next : α → α) : α → List α → α → Prop
  | first, [], last => first = last
  | first, element :: rest, last => first = element ∧ LinkPath next (next element) rest last

namespace LinkPath

variable {next : α → α} {first last : α}

lemma append_iff {left right : List α} :
    LinkPath next first (left ++ right) last ↔
      ∃ middle, LinkPath next first left middle ∧ LinkPath next middle right last := by
  induction left generalizing first with
  | nil =>
    constructor
    · exact fun path => ⟨first, rfl, path⟩
    · rintro ⟨middle, rfl, path⟩
      exact path
  | cons element rest ih =>
    constructor
    · rintro ⟨firstEq, path⟩
      rcases ih.mp path with ⟨middle, before, after⟩
      exact ⟨middle, ⟨firstEq, before⟩, after⟩
    · rintro ⟨middle, ⟨firstEq, before⟩, after⟩
      exact ⟨firstEq, ih.mpr ⟨middle, before, after⟩⟩

variable {elements : List α}

lemma congr {other : α → α} (agree : ∀ element ∈ elements, other element = next element)
    (path : LinkPath next first elements last) : LinkPath other first elements last := by
  induction elements generalizing first with
  | nil => exact path
  | cons element rest ih =>
    refine ⟨path.1, ?_⟩
    rw [agree element mem_cons_self]
    exact ih (fun later member => agree later (mem_cons_of_mem _ member)) path.2

variable [DecidableEq α]

lemma update_of_not_mem {element target : α} (absent : element ∉ elements)
    (path : LinkPath next first elements last) :
    LinkPath (update next element target) first elements last :=
  path.congr fun _ member =>
    update_of_ne (ne_of_mem_of_not_mem member absent) target next

/-- Changing the link of the last element redirects the path. -/
theorem redirect {element target : α} (absent : element ∉ elements)
    (path : LinkPath next first (elements ++ [element]) last) :
    LinkPath (update next element target) first (elements ++ [element]) target := by
  rcases append_iff.mp path with ⟨middle, before, arrives, _⟩
  refine append_iff.mpr ⟨middle, before.update_of_not_mem absent, arrives, ?_⟩
  exact update_self element target next

end LinkPath

/-- Links of a doubly linked list: its ends and the two link functions. -/
structure Links (α : Type u) where
  head : α
  tail : α
  prev : α → α
  next : α → α

namespace Links

variable [DecidableEq α]

/-- Put `element` in front. -/
def insertHead (null : α) (links : Links α) (element : α) : Links α where
  prev :=
    if links.head = null then
      update links.prev element null
    else
      update (update links.prev element null) links.head element
  next := update links.next element links.head
  head := element
  tail := if links.tail = null then element else links.tail

/-- Take `element` out, through its own links. -/
def remove (null : α) (links : Links α) (element : α) : Links α :=
  let before := links.prev element
  let after := links.next element
  let next := if before = null then links.next else update links.next before after
  let prev := if after = null then links.prev else update links.prev after before
  { head := if before = null then after else links.head
    tail := if after = null then before else links.tail
    prev := update prev element null
    next := update next element null }

/-- The links hold `elements`, in this order, once each. -/
structure Holds (null : α) (links : Links α) (elements : List α) : Prop where
  forward : LinkPath links.next links.head elements null
  backward : LinkPath links.prev links.tail elements.reverse null
  nodup : elements.Nodup
  proper : null ∉ elements

variable {null : α} {links : Links α} {elements : List α} {element : α}

omit [DecidableEq α] in
lemma Holds.empty (links : Links α) (headEq : links.head = null) (tailEq : links.tail = null) :
    Holds null links [] :=
  ⟨headEq, tailEq, nodup_nil, not_mem_nil⟩

lemma Holds.insertHead (held : Holds null links elements) (absent : element ∉ elements)
    (elementProper : element ≠ null) : Holds null (links.insertHead null element)
      (element :: elements) := by
  constructor
  · refine ⟨rfl, ?_⟩
    simp only [Links.insertHead, update_self]
    exact held.forward.update_of_not_mem absent
  · rw [reverse_cons]
    cases elements with
    | nil =>
      have headEq : links.head = null := held.forward
      have tailEq : links.tail = null := held.backward
      simp only [Links.insertHead, headEq, tailEq, if_true]
      refine ⟨rfl, ?_⟩
      rw [update_self]
      rfl
    | cons first rest =>
      have headEq : links.head = first := held.forward.1
      have firstNe : first ≠ null := by
        rintro rfl
        exact held.proper mem_cons_self
      have tailNe : links.tail ≠ null := by
        intro isNull
        have path := held.backward
        rw [isNull] at path
        cases reversed : (first :: rest).reverse with
        | nil => exact absurd reversed (by simp)
        | cons last others =>
          rw [reversed] at path
          have member : last ∈ (first :: rest).reverse := by
            rw [reversed]
            exact mem_cons_self
          rw [← path.1, mem_reverse] at member
          exact held.proper member
      have firstAbsent : first ∉ rest.reverse := by
        simpa using (nodup_cons.mp held.nodup).1
      have detached : LinkPath (update links.prev element null) links.tail
          (rest.reverse ++ [first]) null := by
        apply LinkPath.update_of_not_mem _ (by simpa using held.backward)
        simpa [or_comm] using absent
      have joined : LinkPath _ links.tail (rest.reverse ++ [first]) element :=
        detached.redirect firstAbsent
      simp only [Links.insertHead, headEq, firstNe, tailNe, if_false, reverse_cons]
      refine LinkPath.append_iff.mpr ⟨element, joined, rfl, ?_⟩
      have differs : element ≠ first := by
        rintro rfl
        exact absent mem_cons_self
      rw [update_of_ne differs, update_self]
      rfl
  · exact nodup_cons.mpr ⟨absent, held.nodup⟩
  · simp only [mem_cons, not_or]
    exact ⟨Ne.symm elementProper, held.proper⟩

/-- One direction of a removal: the link into `element` is moved past it. -/
theorem path_unlink {next prev : α → α} {first : α} {before after : List α}
    (forward : LinkPath next first (before ++ element :: after) null)
    (backward : LinkPath prev (prev element) before.reverse null)
    (nodup : (before ++ element :: after).Nodup) (proper : null ∉ before) :
    LinkPath (update
        (if prev element = null then next else update next (prev element) (next element))
        element null)
      (if prev element = null then next element else first) (before ++ after) null := by
  rcases LinkPath.append_iff.mp forward with ⟨middle, leading, arrives, trailing⟩
  rw [nodup_append] at nodup
  rcases nodup with ⟨beforeNodup, elementNodup, disjoint⟩
  have elementAfter : element ∉ after := (nodup_cons.mp elementNodup).1
  have elementBefore : element ∉ before := fun member =>
    disjoint element member element mem_cons_self rfl
  rcases eq_nil_or_concat before with rfl | ⟨leadingPart, last, rfl⟩
  · have prevEq : prev element = null := backward
    simp only [prevEq, if_true]
    exact trailing.update_of_not_mem elementAfter
  simp only [concat_eq_append] at *
  rw [reverse_concat] at backward
  have prevEq : prev element = last := backward.1
  have lastNe : last ≠ null := by
    rintro rfl
    exact proper (by simp)
  have lastBefore : last ∉ leadingPart := by
    intro member
    exact (nodup_append.mp beforeNodup).2.2 last member last (by simp) rfl
  have lastAfter : last ∉ after := fun member =>
    disjoint last (by simp) last (mem_cons_of_mem _ member) rfl
  simp only [prevEq, lastNe, if_false]
  refine LinkPath.append_iff.mpr ⟨next element, ?_, ?_⟩
  · exact (leading.redirect lastBefore).update_of_not_mem elementBefore
  · exact (trailing.update_of_not_mem lastAfter).update_of_not_mem elementAfter

lemma Holds.remove {before after : List α} (held : Holds null links (before ++ element :: after)) :
    Holds null (links.remove null element) (before ++ after) := by
  have reversed : (before ++ element :: after).reverse =
      after.reverse ++ element :: before.reverse := by
    simp
  rcases LinkPath.append_iff.mp held.forward with ⟨_, _, _, trailing⟩
  have backward := held.backward
  rw [reversed] at backward
  rcases LinkPath.append_iff.mp backward with ⟨_, _, _, leading⟩
  have proper := held.proper
  simp only [mem_append, mem_cons, not_or] at proper
  have reversedNodup := nodup_reverse.mpr held.nodup
  rw [reversed] at reversedNodup
  constructor
  · exact path_unlink held.forward leading held.nodup proper.1
  · rw [reverse_append]
    exact path_unlink backward (by simpa using trailing) reversedNodup (by simpa using proper.2.2)
  · have sublist : (before ++ after).Sublist (before ++ element :: after) :=
      List.Sublist.append_left (sublist_cons_self element after) before
    exact held.nodup.sublist sublist
  · simp only [mem_append, not_or]
    exact ⟨proper.1, proper.2.2⟩

end Links

end CupidOs.Lists
