import Mathlib.Data.List.TakeDrop
import SecureOS.CapabilityModel
import SecureOS.Lib.KeyedTableProofs
import SecureOS.Lib.MachineRunProofs

/-! # The environment of a console

`kernel/core/console.c`: sixteen entries, never given back.  A key is cut to 23
characters when it is stored and compared in full when it is looked for, so an entry
under a longer key is not found again. -/

namespace ConsoleEnv

open Capability (CStr)
open KeyedTable MachineRun Function

/-- `CONSOLE_ENV_KEY_MAX`. -/
def keyMax : Nat := 24

/-- `CONSOLE_ENV_VALUE_MAX`. -/
def valueMax : Nat := 96

/-- `console_env_entry_t`. -/
structure Entry where
  used : Bool
  key : CStr
  value : CStr

/-- In use, under that very key. -/
def Entry.has (e : Entry) (key : CStr) : Bool := e.used && e.key == key

/-- `console_env_entries`. -/
abbrev Env := Fin 16 → Entry

def consoleEnvReset : Env := fun _ => ⟨false, [], []⟩

def consoleEnvFindSlot (env : Env) (key : CStr) : Option (Fin 16) :=
  Fin.find? (fun i => (env i).has key)

def consoleEnvFindFreeSlot (env : Env) : Option (Fin 16) := Fin.find? (fun i => !(env i).used)

/-- What a pair is stored as. -/
def entryOf (key value : CStr) : Entry := ⟨true, key.take (keyMax - 1), value.take (valueMax - 1)⟩

/-- `console_env_set`: whether the pair was taken, and the entries. -/
def consoleEnvSet (env : Env) (key value : CStr) : Bool × Env :=
  if key = [] then (false, env)
  else
    match (consoleEnvFindSlot env key).or (consoleEnvFindFreeSlot env) with
    | none => (false, env)
    | some i => (true, update env i (entryOf key value))

/-- `console_env_get` into a buffer of `size` characters. -/
def consoleEnvGet (env : Env) (key : CStr) (size : Nat) : Option CStr :=
  if size = 0 then none
  else (consoleEnvFindSlot env key).map (fun i => (env i).value.take (size - 1))

/-- The entries, and the value last taken under each key. -/
structure History where
  env : Env
  taken : CStr → Option CStr

/-- One call of `console_env_set`. -/
def History.set (h : History) (key value : CStr) : History :=
  ⟨(consoleEnvSet h.env key value).2,
    if (consoleEnvSet h.env key value).1 then update h.taken key (some value) else h.taken⟩

/-- After these calls of `console_env_set`. -/
def after (pairs : List (CStr × CStr)) : History :=
  run (fun h pair => h.set pair.1 pair.2) ⟨consoleEnvReset, fun _ => none⟩ pairs

/-- Every key gets the value last taken under it, and no two entries have one key. -/
structure Mirrors (h : History) : Prop where
  get : ∀ key size, 0 < size → consoleEnvGet h.env key size
    = (h.taken key).map fun v => (v.take (valueMax - 1)).take (size - 1)
  one : ∀ i j, (h.env i).used = true → (h.env i).key = (h.env j).key → (h.env j).used = true → i = j

/-- The key of an entry in use. -/
def Entry.name (e : Entry) : Option CStr := if e.used then some e.key else none

theorem has_iff (e : Entry) (key : CStr) : e.has key ↔ e.name = some key := by
  rw [Entry.has, Entry.name]
  cases e.used <;> simp

theorem consoleEnvGet_eq (env : Env) (key : CStr) (hsize : 0 < size) : consoleEnvGet env key size
      = (rowOf Entry.name env key).map fun e => e.value.take (size - 1) := by
  rw [consoleEnvGet, if_neg hsize.ne', consoleEnvFindSlot, find?_eq_find (has_iff · key), rowOf,
    Option.map_map]
  rfl

/-- What the entries keep: they are the pairs taken, under keys that fit. -/
structure Inv (h : History) : Prop where
  row : ∀ k, rowOf Entry.name h.env k = (h.taken k).map (entryOf k)
  distinct : Distinct Entry.name h.env
  fits : ∀ i k, (h.env i).name = some k → k.length < keyMax

theorem Inv.mirrors (hi : Inv h) : Mirrors h where
  get key size hsize := by
    rw [consoleEnvGet_eq _ _ hsize, hi.row, Option.map_map]
    rfl
  one i j hu heq hv := by
    refine hi.distinct i j (h.env i).key (if_pos hu) ?_
    rw [heq]
    exact if_pos hv

/-- A pair that is taken goes where a search under its key ends, or into a free slot. -/
theorem set_cases (h : History) (key value : CStr) :
    ((consoleEnvSet h.env key value).1 = false ∧ h.set key value = h)
      ∨ ∃ i, h.set key value = ⟨update h.env i (entryOf key value), update h.taken key (some value)⟩
        ∧ ((entryOf key value).name = some key →
          Puts Entry.name h.env i (entryOf key value) key) := by
  rw [History.set, consoleEnvSet]
  by_cases hempty : key = []
  · rw [if_pos hempty]
    exact .inl ⟨rfl, rfl⟩
  rw [if_neg hempty, consoleEnvFindSlot, find?_eq_find (has_iff · key)]
  cases hfind : find Entry.name h.env key with
  | some i => exact .inr ⟨i, rfl, puts_found hfind⟩
  | none =>
    rw [Option.none_or]
    cases hfree : consoleEnvFindFreeSlot h.env with
    | none => exact .inl ⟨rfl, rfl⟩
    | some i =>
      have hunused := (Fin.find?_eq_some_iff.mp hfree).1
      exact .inr ⟨i, rfl, puts_free hfind (if_neg (by simpa using hunused))⟩

theorem name_entryOf : (entryOf key value).name = some key ↔ key.length < keyMax := by
  refine Option.some_inj.trans ?_
  rw [entryOf, List.take_eq_self_iff, keyMax]
  omega

theorem inv_set (hi : Inv h) (hfits : key.length < keyMax) (value : CStr) :
    Inv (h.set key value) := by
  obtain ⟨-, hset⟩ | ⟨i, hset, hput⟩ := set_cases h key value
  · rw [hset]
    exact hi
  have hp := hput (name_entryOf.mpr hfits)
  rw [hset]
  refine ⟨fun k => ?_, hp.distinct hi.distinct, fun j k hj => ?_⟩
  · show rowOf Entry.name (update h.env i _) k = (update h.taken key _ k).map _
    rw [rowOf_put hp, update_apply]
    split_ifs with hk
    · rw [hk]
      rfl
    · exact hi.row k
  · obtain ⟨-, rfl⟩ | ⟨-, hold⟩ := hp.key_cases hj
    · exact hfits
    · exact hi.fits j k hold

theorem inv_after (pairs : List (CStr × CStr)) (hfits : ∀ pair ∈ pairs, pair.1.length < keyMax) :
    Inv (after pairs) := by
  induction pairs using List.reverseRecOn with
  | nil => exact ⟨fun k => (rowOf_eq_none_iff k).mpr nofun, nofun, nofun⟩
  | append_singleton _ pair ih =>
    rw [List.forall_mem_append, List.forall_mem_singleton] at hfits
    rw [after, run_append]
    exact inv_set (ih hfits.1) hfits.2 pair.2

/-- **THE ENVIRONMENT IS A MAP** as long as keys fit, and the first longer key that is
    taken ends it. -/
theorem env_map_iff (pairs : List (CStr × CStr)) (hfits : ∀ pair ∈ pairs, pair.1.length < keyMax) :
    Mirrors (after pairs) ∧ ∀ key value, (consoleEnvSet (after pairs).env key value).1 = true →
      (Mirrors ((after pairs).set key value) ↔ key.length < keyMax) := by
  have hinv := inv_after pairs hfits
  refine ⟨hinv.mirrors, fun key value htaken => ⟨fun hm => ?_, fun hf => ?_⟩⟩
  · obtain ⟨hno, -⟩ | ⟨i, hset, -⟩ := set_cases (after pairs) key value
    · exact absurd (htaken.symm.trans hno) (by decide)
    by_contra hlong
    -- neither the new entry nor an older one has so long a key
    have hnone : rowOf Entry.name (update (after pairs).env i (entryOf key value)) key = none := by
      rw [rowOf_eq_none_iff]
      intro j hj
      rw [update_apply] at hj
      split_ifs at hj with hji
      · exact hlong (name_entryOf.mp hj)
      · exact hlong (hinv.fits j _ hj)
    have hget := hm.get key valueMax (by decide)
    rw [hset, consoleEnvGet_eq _ _ (by decide), hnone] at hget
    simp at hget
  · exact (inv_set hinv hf value).mirrors

/-- Two keys, of which one is set again. -/
def threePairs : List (CStr × CStr) :=
  [("PATH".toList, "/bin".toList), ("HOME".toList, "/h".toList), ("PATH".toList, "/os".toList)]

theorem env_map_iff_threePairs : consoleEnvGet (after threePairs).env "PATH".toList 96
        = some "/os".toList
      ∧ consoleEnvGet (after threePairs).env "HOME".toList 96 = some "/h".toList
      ∧ consoleEnvGet (after threePairs).env "USER".toList 96 = none := by
  have h := (env_map_iff threePairs (by decide)).1
  exact ⟨(h.get _ _ (by decide)).trans (by decide), (h.get _ _ (by decide)).trans (by decide),
    (h.get _ _ (by decide)).trans (by decide)⟩

/-- A key of 24 characters is taken and not found again. -/
theorem long_key_lost : ∃ key value, (consoleEnvSet consoleEnvReset key value).1 = true
    ∧ consoleEnvGet (consoleEnvSet consoleEnvReset key value).2 key valueMax = none :=
  ⟨List.replicate 24 'K', [], by decide, by decide⟩

end ConsoleEnv
