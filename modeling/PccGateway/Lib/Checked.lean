import Mathlib.Data.List.Basic
import Mathlib.Algebra.Group.Nat.Defs

/-! Execution of C code on byte buffers in which every access is checked, and every operation on
`size_t`. -/

namespace Checked

/-- Why an execution has no defined result: a read past the end of a buffer, a write past it, a size
that wraps, or a loop that is still running when the fuel is used up. -/
inductive Fault where
  | readPast
  | writePast
  | wraps
  | running
  deriving DecidableEq, Repr

/-- `SIZE_MAX` of a 64-bit platform. -/
def sizeMax : Nat := 2 ^ 64 - 1

def add (a b : Nat) : Except Fault Nat := if a + b ≤ sizeMax then .ok (a + b) else .error .wraps

def sub (a b : Nat) : Except Fault Nat := if b ≤ a then .ok (a - b) else .error .wraps

def mul (a b : Nat) : Except Fault Nat := if a * b ≤ sizeMax then .ok (a * b) else .error .wraps

def load (buffer : List UInt8) (index : Nat) : Except Fault UInt8 :=
  match buffer[index]? with
  | some byte => .ok byte
  | none => .error .readPast

def store (buffer : List UInt8) (index : Nat) (byte : UInt8) : Except Fault (List UInt8) :=
  if index < buffer.length then .ok (buffer.set index byte) else .error .writePast

/-- `memcpy(target + offset, source + start, count)` of two buffers, byte by byte. -/
def copy (source : List UInt8) : List UInt8 → Nat → Nat → Nat → Except Fault (List UInt8)
  | target, _, _, 0 => .ok target
  | target, offset, start, count + 1 => do
    let byte ← load source start
    let target ← store target offset byte
    copy source target (offset + 1) (start + 1) count

/-- A loop: its body goes on with a new state or leaves with a result. -/
def loop {σ β : Type} (body : σ → Except Fault (σ ⊕ β)) : Nat → σ → Except Fault β
  | 0, _ => .error .running
  | fuel + 1, s => do
    match ← body s with
    | .inl s' => loop body fuel s'
    | .inr result => return result

variable {σ β : Type} {body : σ → Except Fault (σ ⊕ β)}

@[simp] theorem bind_ok {α γ : Type} (a : α) (next : α → Except Fault γ) :
    (Except.ok a >>= next) = next a := rfl

theorem add_ok {a b : Nat} (fits : a + b ≤ sizeMax) : add a b = .ok (a + b) := if_pos fits

theorem sub_ok {a b : Nat} (fits : b ≤ a) : sub a b = .ok (a - b) := if_pos fits

theorem mul_ok {a b : Nat} (fits : a * b ≤ sizeMax) : mul a b = .ok (a * b) := if_pos fits

theorem load_ok {buffer : List UInt8} {index : Nat} {byte : UInt8} (found : buffer[index]? = some byte) :
    load buffer index = .ok byte := by rw [load, found]

theorem store_ok {buffer : List UInt8} {index : Nat} (inside : index < buffer.length) (byte : UInt8) :
    store buffer index byte = .ok (buffer.set index byte) := if_pos inside

/-- A copy inside both buffers puts the bytes of one into the other. -/
theorem copy_ok {source target : List UInt8} {offset start count : Nat}
    (reads : start + count ≤ source.length) (writes : offset + count ≤ target.length) :
    ∃ copied, copy source target offset start count = .ok copied ∧ copied.length = target.length ∧
      copied.take (offset + count) = target.take offset ++ (source.drop start).take count := by
  induction count generalizing target offset start with
  | zero => exact ⟨target, rfl, rfl, by simp⟩
  | succ count ih =>
    have inside : start < source.length := by omega
    obtain ⟨copied, run, length, taken⟩ := @ih (target.set offset source[start]) (offset + 1) (start + 1)
      (by omega) (by rw [List.length_set]; omega)
    refine ⟨copied, ?_, by rw [length, List.length_set], ?_⟩
    · rw [copy, load_ok (List.getElem?_eq_getElem inside), bind_ok, store_ok (by omega), bind_ok, run]
    · have placed : (target.set offset source[start]).take (offset + 1) = target.take offset ++
          [source[start]] := by
        rw [List.take_add_one, List.take_set_of_le (Nat.le_refl offset), List.getElem?_set_self (by omega)]
        rfl
      rw [Nat.add_right_comm] at taken
      rw [← Nat.add_assoc, taken, placed, List.drop_eq_getElem_cons inside, List.take_succ_cons,
        List.append_assoc]
      rfl

/-- A loop with an invariant and a measure that falls: with more fuel than the measure it leaves with
a result. -/
theorem loop_ok {Inv : σ → Prop} {Result : β → Prop} (measure : σ → Nat)
    (turn : ∀ s, Inv s → (∃ s', body s = .ok (.inl s') ∧ Inv s' ∧ measure s' < measure s) ∨
      ∃ result, body s = .ok (.inr result) ∧ Result result)
    {fuel : Nat} {s : σ} (start : Inv s) (enough : measure s < fuel) : ∃ result, loop body fuel s =
      .ok result ∧ Result result := by
  induction fuel generalizing s with
  | zero => omega
  | succ fuel ih =>
    rcases turn s start with ⟨s', run, held, falls⟩ | ⟨result, run, holds⟩
    · obtain ⟨result, rest, holds⟩ := ih held (by omega)
      exact ⟨result, by rw [loop, run]; exact rest, holds⟩
    · exact ⟨result, by rw [loop, run]; rfl, holds⟩

theorem loop_next {fuel : Nat} {s s' : σ} (run : body s = .ok (.inl s')) :
    loop body (fuel + 1) s = loop body fuel s' := by
  rw [loop, run]
  rfl

theorem loop_leave {fuel : Nat} {s : σ} {result : β} (run : body s = .ok (.inr result)) :
    loop body (fuel + 1) s = .ok result := by
  rw [loop, run]
  rfl

/-- More fuel changes nothing, nor does a body that is defined in more states. -/
theorem loop_mono {body' : σ → Except Fault (σ ⊕ β)}
    (grows : ∀ s next, body s = .ok next → body' s = .ok next)
    {fuel more : Nat} {s : σ} {result : β} (run : loop body fuel s = .ok result) (le : fuel ≤ more) :
    loop body' more s = .ok result := by
  induction fuel generalizing more s with
  | zero => cases run
  | succ fuel ih =>
    obtain ⟨more, rfl⟩ : ∃ less, more = less + 1 := ⟨more - 1, by omega⟩
    rw [loop] at run ⊢
    cases turn : body s with
    | error fault => rw [turn] at run; cases run
    | ok next =>
      rw [turn] at run
      rw [grows s next turn]
      cases next with
      | inl s' => exact ih run (by omega)
      | inr result => exact run

end Checked
