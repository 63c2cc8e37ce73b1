import CupidOs.Transition.Run
import Mathlib.Algebra.Order.Group.Multiset
import Mathlib.Data.Multiset.Range
import Mathlib.Tactic.Abel

/-!
# The undo buffer of the line editor

`ed.c` keeps the lines of its buffer, and those from before the last change, as pointers to strings
of their own. A string is a number that `kmalloc` hands out once, with the text that `ed_strdup`
puts into it. The slots behind the last line of either array are never read.
-/

namespace CupidOs.Ed

open List Transition

/-- `ED_MAX_LINES` -/
def edMaxLines : Nat := 1024

/-- A string. -/
structure Line where
  id : Nat
  text : List UInt8

/-- The state of the editor, the number of the next string, and the strings that were freed. -/
structure Editor where
  lines : List Line
  cur : Nat
  dirty : Bool
  undoLines : List Line
  undoCur : Nat
  undoValid : Bool
  marks : Fin 26 → Nat
  next : Nat
  freed : List Nat

variable (s : Editor)

/-- `ed_save_undo` frees the old copies and copies the buffer. -/
def edSaveUndo : Editor :=
  { s with
    undoLines := s.lines.mapIdx fun i line => ⟨s.next + i, line.text⟩
    undoCur := s.cur
    undoValid := true
    next := s.next + s.lines.length
    freed := s.freed ++ s.undoLines.map Line.id }

/-- `ed_do_undo` -/
def edDoUndo : Editor :=
  if s.undoValid = false then s
  else
    { s with
      lines := s.undoLines, cur := s.undoCur, undoLines := s.lines, undoCur := s.cur
      dirty := true }

/-- `ed_insert_line` -/
def edInsertLine (after : Nat) (text : List UInt8) : Editor :=
  if s.lines.length ≥ edMaxLines then s
  else
    { s with
      lines := s.lines.insertIdx after ⟨s.next, text⟩
      next := s.next + 1
      marks := fun m => if s.marks m > after then s.marks m + 1 else s.marks m }

/-- `ed_delete_line` -/
def edDeleteLine (pos : Nat) : Editor :=
  if inside : 1 ≤ pos ∧ pos ≤ s.lines.length then
    { s with
      lines := s.lines.eraseIdx (pos - 1)
      freed := s.freed ++ [s.lines[pos - 1].id]
      marks := fun m =>
        if s.marks m = pos then 0 else if s.marks m > pos then s.marks m - 1 else s.marks m }
  else s

/-- `ed_replace_line` -/
def edReplaceLine (pos : Nat) (text : List UInt8) : Editor :=
  if inside : 1 ≤ pos ∧ pos ≤ s.lines.length then
    { s with
      lines := s.lines.set (pos - 1) ⟨s.next, text⟩
      next := s.next + 1
      freed := s.freed ++ [s.lines[pos - 1].id] }
  else s

/-- The calls that change the buffer. -/
inductive Edit
  | insert (after : Nat) (text : List UInt8)
  | delete (pos : Nat)
  | replace (pos : Nat) (text : List UInt8)

/-- One change of the buffer. -/
def editStep : Machine Editor Edit Unit
  | s, .insert after text => (edInsertLine s after text, ())
  | s, .delete pos => (edDeleteLine s pos, ())
  | s, .replace pos text => (edReplaceLine s pos text, ())

/-- All calls. -/
inductive Call
  | edit (edit : Edit)
  | saveUndo
  | doUndo

/-- One call. -/
def edStep : Machine Editor Call Unit
  | s, .edit edit => editStep s edit
  | s, .saveUndo => (edSaveUndo s, ())
  | s, .doUndo => (edDoUndo s, ())

/-- A line is inserted behind a line of the buffer, or in front of all of them. -/
def InBuffer (s : Editor) : Edit → Prop
  | .insert after _ => after ≤ s.lines.length
  | _ => True

@[inherit_doc InBuffer]
def CallInBuffer (s : Editor) : Call → Prop
  | .edit edit => InBuffer s edit
  | _ => True

/-- The numbers of some lines. -/
def ids (lines : List Line) : Multiset Nat := lines.map Line.id

/-- Every string that was handed out is in one slot of one of the two arrays, or was freed once. -/
def Owned : Prop := ids s.lines + ids s.undoLines + s.freed = Multiset.range s.next

/-- The texts of some lines, as far as they have not been freed. -/
def Editor.texts (lines : List Line) : List (Option (List UInt8)) :=
  lines.map fun line => if line.id ∈ s.freed then none else some line.text

variable {s}

lemma Owned.texts_eq (owned : Owned s) {lines : List Line}
    (part : lines = s.lines ∨ lines = s.undoLines) :
    s.texts lines = lines.map fun line => some line.text := by
  have nodup := Multiset.nodup_range s.next
  rw [← owned] at nodup
  refine map_congr_left fun line mem => if_neg fun freed => ?_
  refine Multiset.disjoint_left.mp (Multiset.nodup_add.mp nodup).2.2 ?_ freed
  rcases part with rfl | rfl <;> simp only [ids, Multiset.mem_add, Multiset.mem_coe]
  · exact .inl (mem_map_of_mem mem)
  · exact .inr (mem_map_of_mem mem)

/-- What a change of the buffer leaves as it is. -/
def Editor.saved : List Line × Nat × Bool := (s.undoLines, s.undoCur, s.undoValid)

lemma Owned.edit (owned : Owned s) {edit : Edit} (inBuffer : InBuffer s edit) :
    Owned (editStep s edit).1 ∧ (editStep s edit).1.saved = s.saved := by
  unfold Owned at owned ⊢
  cases edit with
  | insert after text =>
    simp only [editStep, edInsertLine]
    split
    · exact ⟨owned, rfl⟩
    have lines : ids (s.lines.insertIdx after ⟨s.next, text⟩) = s.next ::ₘ ids s.lines :=
      Multiset.coe_eq_coe.mpr ((perm_insertIdx _ _ inBuffer).map Line.id)
    refine ⟨?_, rfl⟩
    rw [lines, Multiset.range_succ, ← owned, Multiset.cons_add, Multiset.cons_add]
  | delete pos =>
    simp only [editStep, edDeleteLine]
    split
    · rename_i inside
      have lines : s.lines[pos - 1].id ::ₘ ids (s.lines.eraseIdx (pos - 1)) = ids s.lines :=
        Multiset.coe_eq_coe.mpr ((getElem_cons_eraseIdx_perm (by omega)).map Line.id)
      refine ⟨?_, rfl⟩
      rw [← owned, ← lines, ← Multiset.coe_add, ← Multiset.singleton_add]
      change _ + (_ + {_}) = _
      abel
    · exact ⟨owned, rfl⟩
  | replace pos text =>
    simp only [editStep, edReplaceLine]
    split
    · rename_i inside
      have old : s.lines[pos - 1].id ::ₘ ids (s.lines.eraseIdx (pos - 1)) = ids s.lines :=
        Multiset.coe_eq_coe.mpr ((getElem_cons_eraseIdx_perm (by omega)).map Line.id)
      have lines : ids (s.lines.set (pos - 1) ⟨s.next, text⟩) =
          s.next ::ₘ ids (s.lines.eraseIdx (pos - 1)) :=
        Multiset.coe_eq_coe.mpr ((set_perm_cons_eraseIdx (by omega) _).map Line.id)
      refine ⟨?_, rfl⟩
      rw [lines, Multiset.range_succ, ← owned, ← old, ← Multiset.coe_add]
      simp only [← Multiset.singleton_add]
      change _ + (_ + {_}) = _
      abel
    · exact ⟨owned, rfl⟩

lemma Owned.saveUndo (owned : Owned s) : Owned (edSaveUndo s) := by
  have copies : ids (s.lines.mapIdx fun i line => ⟨s.next + i, line.text⟩) =
      (Multiset.range s.lines.length).map (s.next + ·) := by
    refine congrArg Multiset.ofList (?_ : _ = (range s.lines.length).map (s.next + ·))
    apply ext_getElem <;> simp
  unfold Owned at owned ⊢
  simp only [edSaveUndo, copies, Multiset.range_add, ← owned, ← Multiset.coe_add]
  rw [← ids]
  abel

lemma Owned.doUndo (owned : Owned s) : Owned (edDoUndo s) := by
  unfold edDoUndo
  split
  · exact owned
  · unfold Owned at owned ⊢
    rw [← owned, add_comm (ids s.undoLines)]

/-- From every buffer whose strings are owned: wherever the current line is by then, undo brings back
the lines and the current line of the last `ed_save_undo`, a second undo those before it, and every
run keeps the strings owned. -/
theorem undo_restores_and_owns (s : Editor) (owned : Owned s) :
    (∀ edits cur, editStep.Along InBuffer (edSaveUndo s) edits →
      let t := { editStep.run (edSaveUndo s) edits with cur := cur }
      let undone := edDoUndo t
      (undone.texts undone.lines, undone.cur) = (s.texts s.lines, s.cur) ∧
        ((edDoUndo undone).texts (edDoUndo undone).lines, (edDoUndo undone).cur) =
          (t.texts t.lines, t.cur)) ∧
    ∀ calls, edStep.Along CallInBuffer s calls → Owned (edStep.run s calls) := by
  constructor
  · intro edits cur inBuffer t undone
    have reached : Owned t ∧ t.saved = (edSaveUndo s).saved := by
      apply Machine.run_invariant (I := fun t => Owned t ∧ t.saved = (edSaveUndo s).saved)
        ?_ ⟨owned.saveUndo, rfl⟩ inBuffer
      rintro state edit ⟨kept, same⟩ fits
      exact ⟨(kept.edit fits).1, (kept.edit fits).2.trans same⟩
    obtain ⟨kept, same⟩ := reached
    simp only [Editor.saved, edSaveUndo, Prod.mk.injEq] at same
    have swapped : undone = { t with
        lines := t.undoLines, cur := t.undoCur, undoLines := t.lines, undoCur := t.cur
        dirty := true } := if_neg (by rw [same.2.2]; decide)
    constructor
    · rw [swapped, same.2.1]
      refine congrArg (·, _) ((kept.texts_eq (.inr rfl)).trans ?_)
      rw [owned.texts_eq (.inl rfl), same.1]
      apply ext_getElem <;> simp
    · have back : edDoUndo undone = _ := if_neg (by rw [swapped]; simp [same.2.2])
      rw [back, swapped]
      rfl
  · intro calls inBuffer
    apply Machine.run_invariant (I := Owned) ?_ owned inBuffer
    intro state call kept fits
    cases call with
    | edit edit => exact (kept.edit fits).1
    | saveUndo => exact kept.saveUndo
    | doUndo => exact kept.doUndo

/-- A new editor. -/
def emptyEditor : Editor := ⟨[], 0, false, [], 0, false, fun _ => 0, 0, []⟩

theorem undo_restores_and_owns_new_editor : Owned (edStep.run emptyEditor
    [.saveUndo, .edit (.insert 0 [97]), .doUndo, .doUndo, .saveUndo, .edit (.delete 1), .doUndo]) :=
  (undo_restores_and_owns emptyEditor rfl).2 _ (by simp [edStep, CallInBuffer, InBuffer])

end CupidOs.Ed
