import SecureOS.Lib.MachineRunProofs
import SecureOS.Lib.RingQueueProofs

/-! # Injected input

The window manager writes into the input ring of a session with `session_manager_write_input`
(`kernel/core/session_manager.c`), and the console takes a byte at a time out of it, in
`console_try_read_injected`, `console_process_injected` and `console_run`
(`kernel/core/console.c`).  One cell of the ring stays free: an empty ring is one whose head is
its tail. -/

namespace InjectedInput

open MachineRun RingQueue List Function

/-- `inject_buf`, `inject_head` and `inject_tail` of a `console_context_t`; `CONSOLE_LINE_MAX` is
    128, and the positions count modulo it. -/
structure Inject where
  buf : Fin 128 → Char
  head : Fin 128
  tail : Fin 128

/-- The loop of `session_manager_write_input`, with the number of bytes it took. -/
def inject (c : Inject) : List Char → Inject × Nat
  | [] => (c, 0)
  | b :: input =>
    if c.head + 1 = c.tail then (c, 0)
    else
      let r := inject { c with buf := update c.buf c.head b, head := c.head + 1 } input
      (r.1, r.2 + 1)

/-- `session_manager_write_input` on the record of the session, if it is in use; a null pointer is
    no input. -/
def sessionManagerWriteInput (session : Option Inject) (input : Option (List Char)) :
    Option Inject × Nat :=
  match session, input with
  | some c, some input => ((inject c input).1, (inject c input).2)
  | _, _ => (session, 0)

def consoleTryReadInjected (c : Inject) : Inject × Option Char :=
  if c.tail = c.head then (c, none) else ({ c with tail := c.tail + 1 }, some (c.buf c.tail))

/-- The session with the bytes its ring took, and those the console read. -/
structure Machine where
  session : Option Inject
  accepted : List Char
  read : List Char

/-- A write from outside, or a read of the console. -/
inductive Op where
  | write (input : Option (List Char))
  | read

def step (m : Machine) : Op → Machine
  | .write input =>
    let r := sessionManagerWriteInput m.session input
    { m with session := r.1, accepted := m.accepted ++ (input.getD []).take r.2 }
  | .read =>
    match m.session with
    | none => m
    | some c =>
      let r := consoleTryReadInjected c
      { m with session := some r.1, read := m.read ++ r.2.toList }

/-- A record that is not in use, or as a new session finds it: only the first cell is written. -/
def start (buf : Option (Fin 128 → Char)) : Machine :=
  ⟨buf.map fun buf => ⟨update buf 0 '\x00', 0, 0⟩, [], []⟩

variable {c : Inject}

/-- The ring with the number of bytes that wait in it. -/
def Inject.ring (c : Inject) : Ring 128 Char := ⟨c.buf, c.tail, (c.head - c.tail).val⟩

/-- Injected and not read yet. -/
def waiting (session : Option Inject) : List Char := session.elim [] fun c => c.ring.toList

theorem count_lt (c : Inject) : c.ring.count < 128 := (c.head - c.tail).isLt

theorem full_iff : c.head + 1 = c.tail ↔ c.ring.count = 127 := by
  simp only [Inject.ring, Fin.ext_iff, Fin.val_add, Fin.val_sub, Fin.val_one]
  omega

theorem ring_put (h : c.head + 1 ≠ c.tail) :
    Inject.ring { c with buf := update c.buf c.head b, head := c.head + 1 }
      = c.ring.push b := by
  have hroom := mt full_iff.mpr h
  have hhead : Fin.ofNat 128 (c.tail + (c.head - c.tail).val) = c.head := by
    simp only [Fin.ext_iff, Fin.ofNat, Fin.val_sub]
    omega
  have hcount : (c.head + 1 - c.tail).val = (c.head - c.tail).val + 1 := by
    have := count_lt c
    simp only [Inject.ring, Fin.val_add, Fin.val_sub, Fin.val_one] at *
    omega
  simp only [Inject.ring, Ring.push, hhead, hcount]

/-- What waits after a write, and how much was taken: as much as there is room for. -/
theorem inject_spec (input : List Char) (c : Inject) :
    (inject c input).1.ring.toList = c.ring.toList ++ input.take (inject c input).2 ∧
      (inject c input).2 = min input.length (127 - c.ring.toList.length) := by
  induction input generalizing c with
  | nil => simp [inject]
  | cons b _ ih =>
    rw [inject]
    split
    next hfull => simp [full_iff.mp hfull]
    next hroom =>
      obtain ⟨hlist, hn⟩ := ih { c with buf := update c.buf c.head b, head := c.head + 1 }
      have hpush := toList_push c.ring b (count_lt c)
      rw [ring_put hroom, hpush] at hlist hn
      have hlt := mt full_iff.mpr hroom
      have := count_lt c
      refine ⟨by rw [hlist, append_assoc]; rfl, ?_⟩
      dsimp only
      rw [hn]
      simp only [length_append, length_toList, length_cons, length_nil]
      omega

/-- A read takes the first byte that waits. -/
theorem consoleTryReadInjected_spec (c : Inject) :
    (consoleTryReadInjected c).2 = c.ring.toList.head? ∧
      (consoleTryReadInjected c).1.ring.toList = c.ring.toList.tail := by
  rw [consoleTryReadInjected]
  split
  next h =>
    have hnil : c.ring.toList = [] := by simp [← length_eq_zero_iff, Inject.ring, h]
    rw [hnil]
    exact ⟨rfl, rfl⟩
  next h =>
    have hpop : c.ring.pop = some (c.buf c.tail, Inject.ring { c with tail := c.tail + 1 }) := by
      have hne : (c.head - c.tail).val ≠ 0 := by
        rw [Fin.ext_iff] at h
        rw [Fin.val_sub]
        omega
      have hcount : (c.head - (c.tail + 1)).val = (c.head - c.tail).val - 1 := by
        simp only [Fin.val_add, Fin.val_sub, Fin.val_one] at *
        omega
      have hcell : Fin.ofNat 128 (c.tail + 0) = c.tail := Fin.ofNat_val_eq_self c.tail
      simp only [Ring.pop, Ring.cell, Inject.ring, if_neg hne, hcount, hcell]
      rfl
    rw [pop_some hpop]
    exact ⟨rfl, rfl⟩

theorem step_fifo (h : m.accepted = m.read ++ waiting m.session) (op : Op) :
    (step m op).accepted = (step m op).read ++ waiting (step m op).session := by
  obtain ⟨_ | c, _, read⟩ := m
  · cases op <;> simpa [step, sessionManagerWriteInput, waiting] using h
  · cases op with
    | write input =>
      cases input with
      | none => simpa [step, sessionManagerWriteInput] using h
      | some input => simp_all [step, sessionManagerWriteInput, waiting, (inject_spec input c).1]
    | read =>
      obtain ⟨_, _⟩ := consoleTryReadInjected_spec c
      have hsplit : c.ring.toList.head?.toList ++ c.ring.toList.tail = c.ring.toList := by
        cases c.ring.toList <;> rfl
      simp_all [step, waiting]

/-- In every interleaving of writes and reads: the bytes taken are those read, followed by those
    that still wait; the next read gives the first that waits; and the next write takes as many as
    fit into 127. -/
theorem injected_fifo (buf : Option (Fin 128 → Char)) (ops : List Op) (input : Option (List Char)) :
    let m := run step (start buf) ops
    m.accepted = m.read ++ waiting m.session ∧
      (m.session.bind fun c => (consoleTryReadInjected c).2) = (waiting m.session).head? ∧
      (sessionManagerWriteInput m.session input).2 = if m.session.isSome
        then min (input.getD []).length (127 - (waiting m.session).length) else 0 := by
  intro m
  have hfifo : m.accepted = m.read ++ waiting m.session :=
    run_inv_all (I := fun m => m.accepted = m.read ++ waiting m.session)
      (fun _ op h => step_fifo h op) ops (start buf) (by cases buf <;> rfl)
  refine ⟨hfifo, ?_⟩
  cases m.session with
  | none => exact ⟨rfl, rfl⟩
  | some c =>
    refine ⟨(consoleTryReadInjected_spec c).1, ?_⟩
    cases input with
    | none => exact (Nat.zero_min (127 - (waiting (some c)).length)).symm
    | some input => exact (inject_spec input c).2

end InjectedInput
