import Mathlib.Algebra.Group.Pi.Basic
import Mathlib.Data.List.Basic
import Mathlib.Data.UInt

/-!
# Nested JIT programs

All CupidC programs run in one code and one data region. A program that starts another one keeps
its regions on a stack of four snapshots in `shell.c`. A start saves them only if a program with a
name is loaded and the stack has room; the end takes a snapshot whenever there is one, be it of
somebody else.
-/

namespace CupidOs.Shell

/-- `JIT_STACK_MAX` -/
def jitStackMax : Nat := 4

/-- The bytes of the code region, of `CC_MAX_CODE` bytes -/
abbrev CodeRegion := Fin (1024 * 1024) → UInt8

/-- The bytes of the data region, of `CC_MAX_DATA` bytes -/
abbrev DataRegion := Fin (8192 * 1024) → UInt8

/-- An entry of `jit_stack` -/
structure Suspended where
  name : List UInt8
  running : Bool
  killed : Bool
  savedCode : CodeRegion
  savedData : DataRegion
  ownerPid : Nat

/-- The two regions and the variables about the program in them. The stack has the entries of
`jit_stack` below `jit_stack_depth`, the last one first. -/
structure Jit where
  code : CodeRegion
  data : DataRegion
  name : List UInt8
  ownerPid : Nat
  running : Bool
  killed : Bool
  stack : List Suspended

/-! ## Start and end -/

/-- The loop that looks for the last slash -/
def basename : List UInt8 → List UInt8 → List UInt8
  | base, [] => base
  | base, c :: rest => basename (if c = 47 then rest else base) rest

/-- The loop that copies up to `.cc` at the end -/
def copyName : Nat → List UInt8 → List UInt8
  | 0, _ => []
  | _, [] => []
  | n + 1, c :: rest => if c :: rest = [46, 99, 99] then [] else c :: copyName n rest

/-- The name of a program in the listing of `ps` -/
def programName : Option (List UInt8) → List UInt8
  | none => []
  | some path => copyName 62 (basename path path)

/-- New contents of the two regions -/
def Jit.load (s : Jit) (code : CodeRegion) (data : DataRegion) : Jit := { s with code, data }

/-- The push of a start -/
def suspend (s : Jit) : Jit :=
  { s with stack := ⟨s.name, s.running, s.killed, s.code, s.data, s.ownerPid⟩ :: s.stack }

/-- What a start sets for the new program -/
def enter (path : Option (List UInt8)) (pid : Nat) (s : Jit) : Jit :=
  { s with ownerPid := pid, running := true, killed := false, name := programName path }

/-- `shell_jit_program_start`.  The two flags tell whether there is memory for the snapshots. -/
def shellJitProgramStart (path : Option (List UInt8)) (pid : Nat) (codeMem dataMem : Bool)
    (s : Jit) : Bool × Jit :=
  if s.name ≠ [] ∧ s.stack.length < jitStackMax then
    if codeMem && dataMem then (true, enter path pid (suspend s)) else (false, s)
  else (true, enter path pid s)

/-- `shell_jit_program_end` -/
def shellJitProgramEnd (s : Jit) : Jit :=
  match s.stack with
  | entry :: rest =>
    ⟨entry.savedCode, entry.savedData, entry.name, entry.ownerPid, entry.running, entry.killed,
      rest⟩
  | [] => { s with ownerPid := 0, running := false, killed := false, name := [] }

/-! ## Sequences of calls -/

/-- The program that runs writes the regions, or another one starts, is loaded, does its body and
ends. A start that returns 0 has no body and no end. -/
inductive Calls where
  | done
  | write (code : CodeRegion) (data : DataRegion) (rest : Calls)
  | program (path : Option (List UInt8)) (pid : Nat) (codeMem dataMem : Bool)
      (code : CodeRegion) (data : DataRegion) (body rest : Calls)

namespace Calls

/-- The state after the calls. -/
def run : Calls → Jit → Jit
  | done, s => s
  | write code data rest, s => rest.run (s.load code data)
  | program path pid codeMem dataMem code data body rest, s =>
    match shellJitProgramStart path pid codeMem dataMem s with
    | (true, started) =>
      rest.run (shellJitProgramEnd (body.run (started.load code data)))
    | (false, started) => rest.run started

/-- The same sequence, with zeros for what the programs write. -/
def shape : Calls → Calls
  | done => done
  | write _ _ rest => write 0 0 rest.shape
  | program path pid codeMem dataMem _ _ body rest =>
    program path pid codeMem dataMem 0 0 body.shape rest.shape

end Calls

/-- The regions, the name and the owner are the same. -/
def Agrees (s s' : Jit) : Prop :=
  s.code = s'.code ∧ s.data = s'.data ∧ s.name = s'.name ∧ s.ownerPid = s'.ownerPid

/-- Every end brings back what its start found, and a start that returns 0 changes nothing. -/
def Restores : Calls → Jit → Prop
  | .done, _ => True
  | .write code data rest, s => Restores rest (s.load code data)
  | .program path pid codeMem dataMem code data body rest, s =>
    match shellJitProgramStart path pid codeMem dataMem s with
    | (true, started) =>
      let ended := shellJitProgramEnd (body.run (started.load code data))
      Restores body (started.load code data) ∧ Agrees ended s ∧ Restores rest ended
    | (false, started) => started = s ∧ Restores rest started

/-- The bracket law: whatever is in the regions and whatever the programs write there. -/
def BracketLaw (calls : Calls) (s : Jit) : Prop :=
  ∀ calls' code data, calls'.shape = calls.shape → Restores calls' (s.load code data)

/-! ## When the law holds -/

/-- Every start that returns 1 finds a program with a name and fewer than four suspended ones. -/
def Nests : Bool → Nat → Calls → Prop
  | _, _, .done => True
  | named, depth, .write _ _ rest => Nests named depth rest
  | named, depth, .program path _ codeMem dataMem _ _ body rest =>
    (named = true ∧ depth < jitStackMax ∧
      ((codeMem && dataMem) = true → Nests (programName path ≠ []) (depth + 1) body)) ∧
    Nests named depth rest

lemma nests_shape (named : Bool) (depth : Nat) (calls : Calls) :
    Nests named depth calls.shape ↔ Nests named depth calls := by
  induction calls generalizing named depth with
  | done => exact Iff.rfl
  | write _ _ rest ih => exact ih named depth
  | program path pid codeMem dataMem code data body rest ihBody ihRest =>
    simp only [Calls.shape, Nests, ihBody, ihRest]

lemma start_of_room {s : Jit} (room : s.name ≠ [] ∧ s.stack.length < jitStackMax)
    (path : Option (List UInt8)) (pid : Nat) (codeMem dataMem : Bool) :
    shellJitProgramStart path pid codeMem dataMem s =
      if (codeMem && dataMem) = true then (true, enter path pid (suspend s)) else (false, s) :=
  if_pos room

/-- The end of a program that has saved the regions brings the whole state back. -/
theorem end_enter_suspend {path : Option (List UInt8)} {pid : Nat} {s : Jit} {body : Calls}
    {code : CodeRegion} {data : DataRegion}
    (keeps : ∃ code' data', body.run ((enter path pid (suspend s)).load code data) =
      (enter path pid (suspend s)).load code' data') :
    shellJitProgramEnd (body.run ((enter path pid (suspend s)).load code data)) = s := by
  obtain ⟨code', data', after⟩ := keeps
  rw [after]
  rfl

/-- Calls that nest properly change the regions only, and every end in them restores. -/
theorem run_of_nests {calls : Calls} {s : Jit} {named : Bool}
    (isNamed : named = true → s.name ≠ []) (nests : Nests named s.stack.length calls) :
    Restores calls s ∧ ∃ code data, calls.run s = s.load code data := by
  induction calls generalizing s named with
  | done => exact ⟨trivial, s.code, s.data, rfl⟩
  | write code data rest ih => exact @ih (s.load code data) named isNamed nests
  | program path pid codeMem dataMem code data body rest ihBody ihRest =>
    obtain ⟨⟨loaded, room, inside⟩, nestsRest⟩ := nests
    have restored := ihRest isNamed nestsRest
    rw [Restores, Calls.run, start_of_room ⟨isNamed loaded, room⟩]
    by_cases memory : (codeMem && dataMem) = true
    · obtain ⟨restoresBody, keeps⟩ :=
        @ihBody ((enter path pid (suspend s)).load code data) (programName path ≠ [])
          of_decide_eq_true (inside memory)
      rw [if_pos memory]
      dsimp only
      rw [end_enter_suspend keeps]
      exact ⟨⟨restoresBody, ⟨rfl, rfl, rfl, rfl⟩, restored.1⟩, restored.2⟩
    · rw [if_neg memory]
      exact ⟨⟨rfl, restored.1⟩, restored.2⟩

/-- A start that saves nothing: the end does not bring back what was in the code region. -/
theorem exists_not_restores_program {s : Jit}
    (bad : ¬ (s.name ≠ [] ∧ s.stack.length < jitStackMax)) (path : Option (List UInt8)) (pid : Nat)
    (codeMem dataMem : Bool) (code : CodeRegion) (data : DataRegion) (body rest : Calls) :
    ∃ before, ¬ Restores (.program path pid codeMem dataMem code data body rest)
      (s.load before s.data) := by
  -- What the end leaves does not depend on the region at the start.
  let after := (shellJitProgramEnd (body.run ((enter path pid s).load code data))).code
  refine ⟨after + 1, fun restores => ?_⟩
  have start : shellJitProgramStart path pid codeMem dataMem (s.load (after + 1) s.data) =
      (true, enter path pid (s.load (after + 1) s.data)) := if_neg bad
  rw [Restores, start] at restores
  have same : after 0 = after 0 + 1 := congrFun restores.2.1.1 0
  exact absurd (left_eq_add.mp same) (by decide)

/-- Where a start saves nothing, some contents of the regions are lost. -/
theorem exists_not_restores {calls : Calls} {s : Jit}
    (bad : ¬ Nests (s.name ≠ []) s.stack.length calls) :
    ∃ calls' code data, calls'.shape = calls.shape ∧ ¬ Restores calls' (s.load code data) := by
  induction calls generalizing s with
  | done => exact absurd trivial bad
  | write code data rest ih =>
    obtain ⟨rest', code', data', same, lost⟩ := ih bad
    exact ⟨.write code' data' rest', 0, 0, congrArg (Calls.write 0 0) same, lost⟩
  | program path pid codeMem dataMem code data body rest ihBody ihRest =>
    by_cases room : s.name ≠ [] ∧ s.stack.length < jitStackMax
    swap
    · obtain ⟨before, lost⟩ :=
        exists_not_restores_program room path pid codeMem dataMem code data body rest
      exact ⟨_, before, s.data, rfl, lost⟩
    by_cases inside : (codeMem && dataMem) = true →
        Nests (programName path ≠ []) (s.stack.length + 1) body
    · -- The bracket itself is sound, so a later start loses something.
      have badRest : ¬ Nests (s.name ≠ []) s.stack.length rest := fun nests =>
        bad ⟨⟨decide_eq_true room.1, room.2, inside⟩, nests⟩
      obtain ⟨rest', code', data', same, lost⟩ := ihRest badRest
      refine ⟨.program path pid codeMem dataMem code data body rest', code', data',
        congrArg (Calls.program path pid codeMem dataMem 0 0 body.shape) same,
        fun restores => lost ?_⟩
      have start := @start_of_room (s.load code' data') room path pid codeMem dataMem
      rw [Restores, start] at restores
      by_cases memory : (codeMem && dataMem) = true
      · obtain ⟨-, keeps⟩ := @run_of_nests body
          ((enter path pid (suspend (s.load code' data'))).load code data) (programName path ≠ [])
          of_decide_eq_true (inside memory)
        rw [if_pos memory] at restores
        have later := restores.2.2
        rwa [end_enter_suspend keeps] at later
      · rw [if_neg memory] at restores
        exact restores.2
    · obtain ⟨memory, badBody⟩ := Classical.not_imp.mp inside
      obtain ⟨body', code', data', same, lost⟩ := @ihBody (enter path pid (suspend s)) badBody
      refine ⟨.program path pid codeMem dataMem code' data' body' rest, s.code, s.data,
        congrArg (fun body => Calls.program path pid codeMem dataMem 0 0 body rest.shape) same,
        fun restores => lost ?_⟩
      have start := @start_of_room (s.load s.code s.data) room path pid codeMem dataMem
      rw [Restores, start, if_pos memory] at restores
      exact restores.1

/-- The ends of a sequence bring back what their starts found exactly if no start happens without a
named program in the regions or with four suspended programs. -/
theorem bracket_law_iff (calls : Calls) (s : Jit) :
    BracketLaw calls s ↔ Nests (s.name ≠ []) s.stack.length calls := by
  constructor
  · intro law
    by_contra bad
    obtain ⟨calls', code, data, same, lost⟩ := exists_not_restores bad
    exact lost (law calls' code data same)
  · intro nests calls' code data same
    have nests' : Nests (s.name ≠ []) s.stack.length calls' := by
      rwa [← nests_shape, same, nests_shape]
    exact (@run_of_nests calls' (s.load code data) _ of_decide_eq_true nests').1

/-! ## Five programs in each other -/

/-- A program `a` that is loaded and starts another one. -/
def loaded : Jit := ⟨0, 0, [97], 1, true, false, []⟩

/-- Five programs with names of one letter, each started by the one before. -/
def fiveDeep : Calls :=
  let nest := fun letter body =>
    Calls.program (some [letter]) 1 true true 0 0 body .done
  nest 98 (nest 99 (nest 100 (nest 101 (nest 102 .done))))

/-- The start of the fifth program returns 1 and saves nothing.  When all have ended, `a` has lost
its name and its owner. -/
theorem fifth_program_not_saved : ¬ BracketLaw fiveDeep loaded ∧ (fiveDeep.run loaded).name = [] ∧
      (fiveDeep.run loaded).ownerPid = 0 := by
  refine ⟨fun law => ?_, by decide, by decide⟩
  have restored : Agrees (fiveDeep.run loaded) loaded := (law fiveDeep 0 0 rfl).2.1
  exact absurd restored.2.2.1 (by decide)

end CupidOs.Shell
