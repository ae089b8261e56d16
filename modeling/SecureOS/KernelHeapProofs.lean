import Mathlib.Algebra.Ring.Nat
import Mathlib.Data.List.Chain
import SecureOS.Lib.MachineRunProofs

/-! # The kernel heap

`kernel/mem/kheap.c`: a first-fit allocator over an arena of 2 MB.  Every block is a header of
32 bytes and a payload; the headers are linked in address order.  An allocation takes the first
free block that is large enough and splits off what is left of it; a release merges free
neighbours.

Addresses are offsets into the arena.  The blocks are kept as the list that the `next` pointers
form; what the stores to their headers leave in the arena is `junk`. All calls come after
`kheap_init`. -/

namespace KernelHeap

open MachineRun List

/-- `kheap_block_t` at its address.  The size that was asked for is kept along; no call reads it. -/
structure Block where
  addr : Nat
  size : Nat
  free : Bool
  asked : Nat
deriving DecidableEq

/-- The payload, behind a header of `align_up(HEADER_SIZE)` bytes. -/
def Block.payload (b : Block) : Nat := b.addr + 32

/-- Where the next block begins. -/
def Block.finish (b : Block) : Nat := b.addr + 32 + b.size

/-- The blocks from `g_head` on, and the bytes of `g_arena`. -/
structure Heap where
  blocks : List Block
  mem : Nat → BitVec 8

/-- `KHEAP_ARENA_SIZE`. -/
def arenaSize : Nat := 2097152

/-- `align_up`.  The mask is an `unsigned int`, so it clears the upper half as well. -/
def alignUp (val : Nat) : Nat := (val + 15) % 2 ^ 64 &&& 0xFFFFFFF0

/-- `kheap_init`. -/
def initBlock : Block := ⟨0, arenaSize - 32, true, 0⟩

/-- The search of `kmalloc`: the block it takes, and the list it leaves. -/
def place (n asked : Nat) : List Block → Option (Block × List Block)
  | [] => none
  | b :: bs =>
    if b.free ∧ n ≤ b.size then
      if n + 48 ≤ b.size then
        let taken : Block := ⟨b.addr, n, false, asked⟩
        some (taken, taken :: ⟨b.addr + 32 + n, b.size - n - 32, true, 0⟩ :: bs)
      else
        let taken : Block := { b with free := false, asked := asked }
        some (taken, taken :: bs)
    else (place n asked bs).map fun r => (r.1, b :: r.2)

/-- The arena after stores to headers of these blocks. -/
def withHeaders (bs : List Block) (junk m : Nat → BitVec 8) : Nat → BitVec 8 :=
  fun a => if bs.any (fun b => b.addr ≤ a && a < b.addr + 24) then junk a else m a

def kmalloc (h : Heap) (size : Nat) (junk : Nat → BitVec 8) : Heap × Option Nat :=
  if size = 0 then (h, none)
  else
    match place (alignUp size) size h.blocks with
    | none => (h, none)
    | some (b, bs) =>
      (⟨bs, fun a => if b.payload ≤ a ∧ a < b.finish then 0 else withHeaders bs junk h.mem a⟩,
        some b.payload)

/-- The forward pass of `kfree` from one block on. -/
def coalesce (current : Block) : List Block → List Block
  | [] => [current]
  | next :: bs =>
    if current.free ∧ next.free then
      coalesce { current with size := current.size + (32 + next.size) } bs
    else current :: coalesce next bs

/-- `block->free = 1`. -/
def markFree (p : Nat) (b : Block) : Block := if b.payload = p then { b with free := true } else b

/-- `kfree` of a payload pointer. -/
def kfree (h : Heap) (p : Nat) (junk : Nat → BitVec 8) : Heap :=
  if p < 32 ∨ arenaSize ≤ p - 32 then h
  else
    match h.blocks.map (markFree p) with
    | [] => h
    | b :: bs => ⟨coalesce b bs, withHeaders h.blocks junk h.mem⟩

def kheapFreeBytes (h : Heap) : Nat := ((h.blocks.filter (·.free)).map (·.size)).sum

/-! ## Layout -/

/-- The blocks fill the addresses from `lo` to `hi`, in order and in units of 16 bytes. -/
def Tiles (lo : Nat) : List Block → Nat → Prop
  | [], hi => lo = hi
  | b :: bs, hi => b.addr = lo ∧ b.size % 16 = 0 ∧ Tiles b.finish bs hi

/-- No two adjacent blocks are free. -/
def Settled (bs : List Block) : Prop := bs.IsChain (fun a b => ¬ (a.free = true ∧ b.free = true))

/-- The blocks handed out. -/
def used (bs : List Block) : List Block := bs.filter (fun b => !b.free)

/-- Blocks without a common byte. -/
def Apart (b c : Block) : Prop := b.finish ≤ c.addr ∨ c.finish ≤ b.addr

instance : Std.Symm Apart := ⟨fun _ _ => Or.symm⟩

variable {bs : List Block} {lo hi : Nat}

theorem tiles_bounds : ∀ {lo : Nat}, Tiles lo bs hi →
    lo ≤ hi ∧ ∀ b ∈ bs, lo ≤ b.addr ∧ b.finish ≤ hi ∧ (b.addr - lo) % 16 = 0 := by
  induction bs with
  | nil => intro lo h; exact ⟨Nat.le_of_eq h, nofun⟩
  | cons _ _ ih =>
    rintro _ ⟨_, _, hrest⟩
    obtain ⟨hle, hbs⟩ := ih hrest
    rw [Block.finish] at hle
    refine ⟨by omega, ?_⟩
    rintro c (_ | ⟨_, hc⟩)
    · exact ⟨by omega, hle, by omega⟩
    · obtain ⟨hlo, hhi, hmod⟩ := hbs c hc
      rw [Block.finish] at hlo hmod
      exact ⟨by omega, hhi, by omega⟩

/-- Blocks lie behind each other. -/
theorem tiles_pairwise : ∀ {lo : Nat}, Tiles lo bs hi →
    bs.Pairwise (fun a b => a.finish ≤ b.addr) := by
  induction bs with
  | nil => intro lo h; exact .nil
  | cons _ _ ih =>
    rintro _ ⟨-, -, hrest⟩
    exact .cons (fun c hc => ((tiles_bounds hrest).2 c hc).1) (ih hrest)

theorem tiles_apart (h : Tiles lo bs hi) : bs.Pairwise Apart := (tiles_pairwise h).imp Or.inl

/-! ## Taking a block -/

theorem alignUp_eq (val : Nat) : alignUp val = (val + 15) % 2 ^ 32 / 16 * 16 := by
  have hmask : ∀ x : Nat, x &&& (2 ^ 28 - 1) <<< 4 = (x >>> 4 &&& 2 ^ 28 - 1) <<< 4 := by
    intro _
    refine Nat.eq_of_testBit_eq fun i => ?_
    simp only [Nat.testBit_and, Nat.testBit_shiftLeft, Nat.testBit_shiftRight]
    grind
  rw [alignUp, show 0xFFFFFFF0 = (2 ^ 28 - 1) <<< 4 from rfl, hmask,
    Nat.and_two_pow_sub_one_eq_mod, Nat.shiftLeft_eq, Nat.shiftRight_eq_div_pow]
  omega

theorem place_eq_none (h : place n asked bs = none) : ∀ b ∈ bs, b.free → b.size < n := by
  fun_induction place n asked bs with
  | case1 => exact nofun
  | case2 | case3 => cases h
  | case4 _ _ hfit ih =>
    rintro c (_ | ⟨_, hc⟩)
    · exact fun hfree => Nat.lt_of_not_le fun hle => hfit ⟨hfree, hle⟩
    · exact ih (Option.map_eq_none_iff.mp h) c hc

theorem used_cons (b : Block) (bs : List Block) :
    used (b :: bs) = if b.free then used bs else b :: used bs := by
  cases hf : b.free <;> simp [used, hf]

/-- **A BLOCK TAKEN**, or its front, leaves the layout in order and is one of those handed out. -/
theorem place_ok (hn : n % 16 = 0) : ∀ {bs bs' : List Block} {lo : Nat},
    place n asked bs = some (t, bs') → Tiles lo bs hi → Settled bs →
    Tiles lo bs' hi ∧ Settled bs' ∧ n ≤ t.size ∧ t.asked = asked ∧ (used bs').Perm (t :: used bs)
      ∧ (∃ b ∈ bs, b.free ∧ n ≤ b.size) ∧ ∀ c ∈ bs'.head?, c.free → ∃ d ∈ bs.head?, d.free := by
  intro bs
  induction bs with
  | nil => exact nofun
  | cons b _ ih =>
    rintro _ _ h ⟨ha, hmod, hrest⟩ hs
    rw [place] at h
    split_ifs at h with hfit hroom
    · cases h
      refine ⟨⟨ha, hn, rfl, ?_, ?_⟩, .cons_cons (by simp) (isChain_cons.mpr ?_),
        Nat.le_refl n, rfl, ?_, ⟨b, by simp, hfit⟩, by simp⟩
      · show (b.size - n - 32) % 16 = 0
        omega
      · rw [show Block.finish ⟨b.addr + 32 + n, b.size - n - 32, true, 0⟩ = b.finish by
          simp only [Block.finish]; omega]
        exact hrest
      · have hs := isChain_cons.mp hs
        exact ⟨fun y hy => hfit.1 ▸ hs.1 y hy, hs.2⟩
      · rw [used_cons, used_cons, used_cons, hfit.1]
        exact .refl _
    · cases h
      refine ⟨⟨ha, hmod, hrest⟩, isChain_cons.mpr ⟨fun y _ => by simp, hs.tail⟩, hfit.2, rfl,
        ?_, ⟨b, by simp, hfit⟩, by simp⟩
      rw [used_cons, used_cons, hfit.1]
      exact .refl _
    · obtain ⟨_, hr, he⟩ := Option.map_eq_some_iff.mp h
      obtain ⟨rfl, rfl⟩ := Prod.mk.inj he
      obtain ⟨htiles, hsettled, hle, hasked, hused, ⟨d, hd, hfree⟩, hhead⟩ := ih hr hrest hs.tail
      refine ⟨⟨ha, hmod, htiles⟩, isChain_cons.mpr ⟨fun c hc hboth => ?_, hsettled⟩, hle,
        hasked, ?_, ⟨d, mem_cons_of_mem b hd, hfree⟩, fun c hc hf => ⟨c, hc, hf⟩⟩
      · -- before a free block there was a free block
        obtain ⟨x, hx, hxfree⟩ := hhead c hc hboth.2
        exact (isChain_cons.mp hs).1 x hx ⟨hboth.1, hxfree⟩
      · rw [used_cons, used_cons]
        split_ifs
        · exact hused
        · exact (hused.cons b).trans (.swap ..)

/-! ## Giving a block back -/

theorem coalesce_ok (b : Block) (bs : List Block) (h : Tiles lo (b :: bs) hi) :
    Tiles lo (coalesce b bs) hi ∧ Settled (coalesce b bs) ∧ used (coalesce b bs) = used (b :: bs)
      ∧ ∀ c ∈ (coalesce b bs).head?, c.free = b.free := by
  fun_induction coalesce b bs generalizing lo with
  | case1 b => exact ⟨h, .singleton b, rfl, fun c hc => by rw [← Option.some.inj hc]⟩
  | case2 b next _ hboth ih =>
    obtain ⟨ha, hmod, hnext, hmod', hrest⟩ := h
    have hfinish : Block.finish { b with size := b.size + (32 + next.size) } = next.finish := by
      rw [Block.finish] at hnext ⊢
      rw [Block.finish, hnext]
      simp only
      omega
    obtain ⟨htiles, hsettled, hused, hhead⟩ :=
      ih ⟨ha, by simp only; omega, hfinish.symm ▸ hrest⟩
    refine ⟨htiles, hsettled, hused.trans ?_, hhead⟩
    rw [used_cons, used_cons, used_cons, hboth.1, hboth.2]
    rfl
  | case3 b next _ hboth ih =>
    obtain ⟨ha, hmod, hnext⟩ := h
    obtain ⟨htiles, hsettled, hused, hhead⟩ := ih hnext
    refine ⟨⟨ha, hmod, htiles⟩, isChain_cons.mpr ⟨fun c hc => ?_, hsettled⟩, ?_,
      fun c hc => by rw [← Option.some.inj hc]⟩
    · rw [hhead c hc]
      exact hboth
    · rw [used_cons, used_cons, hused]

theorem tiles_mark (p : Nat) :
    ∀ {lo : Nat}, Tiles lo bs hi → Tiles lo (bs.map (markFree p)) hi := by
  induction bs with
  | nil => exact id
  | cons b _ ih =>
    rintro _ ⟨ha, hmod, hrest⟩
    have hsame : (markFree p b).addr = b.addr ∧ (markFree p b).size = b.size := by
      rw [markFree]
      split_ifs <;> exact ⟨rfl, rfl⟩
    refine ⟨hsame.1.trans ha, hsame.2 ▸ hmod, ?_⟩
    rw [Block.finish, hsame.1, hsame.2]
    exact ih hrest

theorem used_mark (p : Nat) (bs : List Block) :
    used (bs.map (markFree p)) = (used bs).filter (fun b => b.payload ≠ p) := by
  induction bs with
  | nil => rfl
  | cons b _ ih =>
    rw [map_cons, used_cons, used_cons, ih, markFree]
    by_cases hp : b.payload = p <;> cases hf : b.free <;> simp [hp, hf]

/-- **A BLOCK RELEASED** leaves the layout in order and the other blocks handed out. -/
theorem kfree_ok (ht : Tiles 0 h.blocks arenaSize) (p : Nat) (junk : Nat → BitVec 8)
    (hp : ∃ b ∈ used h.blocks, b.payload = p) :
    Tiles 0 (kfree h p junk).blocks arenaSize ∧ Settled (kfree h p junk).blocks
      ∧ used (kfree h p junk).blocks = (used h.blocks).filter (fun b => b.payload ≠ p)
      ∧ (kfree h p junk).mem = withHeaders h.blocks junk h.mem := by
  obtain ⟨b, hb, rfl⟩ := hp
  have hmem := mem_of_mem_filter hb
  have hend := ((tiles_bounds ht).2 b hmem).2.1
  rw [Block.finish] at hend
  rw [← used_mark]
  have htiles := tiles_mark b.payload ht
  rw [kfree, if_neg (by simp only [Block.payload, arenaSize] at hend ⊢; omega)]
  cases hm : h.blocks.map (markFree b.payload) with
  | nil =>
    rw [map_eq_nil_iff] at hm
    rw [hm] at hmem
    cases hmem
  | cons c bs =>
    rw [hm] at htiles
    obtain ⟨hc, hsettled, hused, -⟩ := coalesce_ok c bs htiles
    exact ⟨hc, hsettled, hused, rfl⟩

theorem single_of_unused (ht : Tiles 0 bs arenaSize) (hs : Settled bs) (hu : used bs = []) :
    ∃ a, bs = [{ initBlock with asked := a }] := by
  have hfree : ∀ b ∈ bs, b.free := by
    intro b hb
    simpa using filter_eq_nil_iff.mp hu b hb
  cases bs with
  | nil => cases ht
  | cons b bs =>
    cases bs with
    | nil =>
      obtain ⟨ha, -, hend⟩ := ht
      have hb := hfree b (by simp)
      obtain ⟨_, size, _, asked⟩ := b
      simp only [Block.finish, arenaSize, Tiles] at ha hb hend
      refine ⟨asked, ?_⟩
      rw [ha, hb, initBlock, arenaSize, show size = 2097152 - 32 by omega]
    | cons c => exact absurd ⟨hfree b (by simp), hfree c (by simp)⟩ (isChain_cons_cons.mp hs).1

/-! ## Runs -/

/-- The heap, and the live pointers with the sizes they were asked for. -/
structure World where
  heap : Heap
  live : List (Nat × Nat)

/-- A call, or what programs do to the arena between calls. -/
inductive HeapOp where
  | malloc (size : Nat) (junk : Nat → BitVec 8)
  | free (p : Nat) (junk : Nat → BitVec 8)
  | write (mem : Nat → BitVec 8)

def step (w : World) : HeapOp → World
  | .malloc size junk =>
    ⟨(kmalloc w.heap size junk).1,
      ((kmalloc w.heap size junk).2.map fun p => (p, size)).toList ++ w.live⟩
  | .free p junk => ⟨kfree w.heap p junk, w.live.filter (fun x => x.1 ≠ p)⟩
  | .write mem => ⟨⟨w.heap.blocks, mem⟩, w.live⟩

/-- Only live pointers are released. -/
def Releases (w : World) : HeapOp → Prop
  | .free p _ => ∃ n, (p, n) ∈ w.live
  | _ => True

/-- The heap `kheap_init` makes. -/
def boot (mem : Nat → BitVec 8) : World := ⟨⟨[initBlock], mem⟩, []⟩

/-- The heap is in order, and its blocks in use are the live allocations. -/
structure HeapOk (w : World) : Prop where
  tiles : Tiles 0 w.heap.blocks arenaSize
  settled : Settled w.heap.blocks
  live : w.live.Perm ((used w.heap.blocks).map fun b => (b.payload, b.asked))
  large : ∀ b ∈ used w.heap.blocks, b.asked ≤ 2 ^ 32 - 16 → b.asked ≤ b.size

/-- A `kmalloc` fails and changes nothing, or takes a block. -/
theorem kmalloc_cases (h : Heap) (size : Nat) (junk : Nat → BitVec 8) :
    (kmalloc h size junk = (h, none) ∧ (size = 0 ∨ ∀ b ∈ h.blocks, b.free → b.size < alignUp size))
      ∨ ∃ t bs, size ≠ 0 ∧ place (alignUp size) size h.blocks = some (t, bs)
        ∧ kmalloc h size junk = (⟨bs, fun a => if t.payload ≤ a ∧ a < t.finish then 0
            else withHeaders bs junk h.mem a⟩, some t.payload) := by
  rw [kmalloc]
  split_ifs with h0
  · exact Or.inl ⟨rfl, Or.inl h0⟩
  · cases hp : place (alignUp size) size h.blocks with
    | none => exact Or.inl ⟨rfl, Or.inr (place_eq_none hp)⟩
    | some r => exact Or.inr ⟨r.1, r.2, h0, rfl, rfl⟩

theorem alignUp_mod (size : Nat) : alignUp size % 16 = 0 := by
  rw [alignUp_eq]
  exact Nat.mul_mod_left ..

theorem le_alignUp (h : size ≤ 2 ^ 32 - 16) : size ≤ alignUp size := by
  rw [alignUp_eq]
  omega

theorem heapOk_step (w : World) (op : HeapOp) (h : HeapOk w) (hop : Releases w op) :
    HeapOk (step w op) := by
  cases op with
  | write => exact ⟨h.tiles, h.settled, h.live, h.large⟩
  | malloc size junk =>
    rw [step]
    obtain ⟨he, -⟩ | ⟨_, _, -, hp, he⟩ := kmalloc_cases w.heap size junk
    · rw [he]
      exact h
    · obtain ⟨htiles, hsettled, hle, rfl, hused, -⟩ :=
        place_ok (alignUp_mod size) hp h.tiles h.settled
      rw [he]
      have hlive := hused.map fun b => (b.payload, b.asked)
      refine ⟨htiles, hsettled, (h.live.cons _).trans hlive.symm, fun b hb => ?_⟩
      obtain rfl | hb := mem_cons.mp (hused.subset hb)
      · exact fun hsize => (le_alignUp hsize).trans hle
      · exact h.large b hb
  | free p junk =>
    obtain ⟨_, hn⟩ := hop
    obtain ⟨b, hb, hpn⟩ := mem_map.mp (h.live.subset hn)
    obtain ⟨htiles, hsettled, hused, -⟩ := kfree_ok h.tiles p junk ⟨b, hb, (Prod.mk.inj hpn).1⟩
    refine ⟨htiles, hsettled, ?_, ?_⟩
    · show (w.live.filter _).Perm ((used (kfree w.heap p junk).blocks).map _)
      rw [hused]
      refine (h.live.filter _).trans (List.Perm.of_eq ?_)
      rw [filter_map]
      rfl
    · show ∀ b ∈ used (kfree w.heap p junk).blocks, _
      rw [hused]
      exact fun b hb => h.large b (mem_of_mem_filter hb)

/-- **EVERY RUN** that releases live pointers only keeps the heap in order. -/
theorem heapOk_run (mem : Nat → BitVec 8) (ops : List HeapOp)
    (hops : Along step Releases (boot mem) ops) : HeapOk (run step (boot mem) ops) :=
  run_inv heapOk_step ops _ ⟨⟨rfl, rfl, rfl⟩, .singleton _, .refl _, nofun⟩ hops

/-- **THE KERNEL HEAP** after any such run: the blocks tile the arena, no two adjacent ones free;
    the live payloads are blocks of their own, aligned and as large as asked for; a new payload is
    zero, a release leaves the others alone, and with nothing live there is one free block. -/
theorem kernel_heap (mem : Nat → BitVec 8) (ops : List HeapOp)
    (hops : Along step Releases (boot mem) ops) (w : World) (hw : w = run step (boot mem) ops) :
    Tiles 0 w.heap.blocks arenaSize ∧ Settled w.heap.blocks
      ∧ w.live.Perm ((used w.heap.blocks).map fun b => (b.payload, b.asked))
      ∧ (used w.heap.blocks).Pairwise (fun a b => a.finish ≤ b.addr)
      ∧ (∀ b ∈ used w.heap.blocks, b.payload % 16 = 0 ∧ (b.asked < arenaSize → b.asked ≤ b.size))
      ∧ (∀ size junk p, (kmalloc w.heap size junk).2 = some p →
          ∃ b ∈ used (kmalloc w.heap size junk).1.blocks, b.payload = p ∧ b.asked = size
            ∧ ∀ a, b.payload ≤ a → a < b.finish → (kmalloc w.heap size junk).1.mem a = 0)
      ∧ (∀ p n junk, (p, n) ∈ w.live → ∀ b ∈ used w.heap.blocks, b.payload ≠ p →
          ∀ a, b.payload ≤ a → a < b.finish → (kfree w.heap p junk).mem a = w.heap.mem a)
      ∧ (w.live = [] → (∃ a, w.heap.blocks = [{ initBlock with asked := a }])
          ∧ kheapFreeBytes w.heap = arenaSize - 32) := by
  have h : HeapOk w := hw ▸ heapOk_run mem ops hops
  refine ⟨h.tiles, h.settled, h.live, (tiles_pairwise h.tiles).filter _, fun b hb => ⟨?_, ?_⟩,
    fun size junk p hp => ?_, fun p n junk hn b hb _ a ha ha' => ?_, fun hnone => ?_⟩
  · obtain ⟨-, -, _⟩ := (tiles_bounds h.tiles).2 b (mem_of_mem_filter hb)
    rw [Block.payload]
    omega
  · intro hasked
    exact h.large b hb (by rw [arenaSize] at hasked; omega)
  · obtain ⟨he, -⟩ | ⟨t, _, -, hplace, he⟩ := kmalloc_cases w.heap size junk
    · rw [he] at hp
      cases hp
    · obtain ⟨-, -, -, hasked, hused, -⟩ := place_ok (alignUp_mod size) hplace h.tiles h.settled
      rw [he] at hp ⊢
      exact ⟨t, hused.mem_iff.mpr (by simp), Option.some.inj hp, hasked,
        fun a ha ha' => if_pos ⟨ha, ha'⟩⟩
  · obtain ⟨c, hc, hpn⟩ := mem_map.mp (h.live.subset hn)
    rw [(kfree_ok h.tiles p junk ⟨c, hc, (Prod.mk.inj hpn).1⟩).2.2.2, withHeaders, if_neg]
    -- the header of a block lies before its payload and outside the other blocks
    rw [any_eq_true]
    rintro ⟨d, hd, hin⟩
    have hapart := (tiles_apart h.tiles).forall hd (mem_of_mem_filter hb)
    simp only [Bool.and_eq_true, decide_eq_true_eq] at hin
    simp only [Apart, Block.finish, Block.payload] at ha ha' hapart
    by_cases hdb : d = b
    · rw [hdb] at hin
      omega
    · have := hapart hdb
      omega
  · have hused : used w.heap.blocks = [] := by
      have hlive := h.live
      rw [hnone] at hlive
      exact map_eq_nil_iff.mp hlive.nil_eq.symm
    obtain ⟨a, ha⟩ := single_of_unused h.tiles h.settled hused
    refine ⟨⟨a, ha⟩, ?_⟩
    rw [kheapFreeBytes, ha]
    rfl

/-- Three allocations, and the one in the middle released. -/
def holed : List HeapOp :=
  [.malloc 100 fun _ => 1, .malloc 200 fun _ => 2, .malloc 300 fun _ => 3, .free 176 fun _ => 4]

theorem releases_holed : Along step Releases (boot fun _ => 0) holed :=
  ⟨trivial, trivial, trivial, ⟨200, by decide⟩, trivial⟩

/-- The first is released as well, its place taken again, and the rest released. -/
def emptied : List HeapOp :=
  [.free 32 fun _ => 5, .malloc 64 fun _ => 6, .free 416 fun _ => 7, .free 32 fun _ => 8]

theorem kernel_heap_emptied : Settled (run step (boot fun _ => 0) holed).heap.blocks
      ∧ (run step (boot fun _ => 0) holed).live = [(416, 300), (32, 100)]
      ∧ kheapFreeBytes (run step (boot fun _ => 0) (holed ++ emptied)).heap = arenaSize - 32 := by
  have hops : Along step Releases (boot fun _ => 0) (holed ++ emptied) :=
    (along_append step _ holed emptied _).mpr
      ⟨releases_holed, ⟨100, by decide⟩, trivial, ⟨300, by decide⟩, ⟨64, by decide⟩, trivial⟩
  have hend := kernel_heap (fun _ => 0) (holed ++ emptied) hops _ rfl
  exact ⟨(kernel_heap (fun _ => 0) holed releases_holed _ rfl).2.1, by decide,
    (hend.2.2.2.2.2.2.2 (by decide)).2⟩

/-! ## What a pointer is good for -/

/-- The bytes asked for lie in one block of the arena that no live allocation uses. -/
def Gives (h : Heap) (size : Nat) (junk : Nat → BitVec 8) : Prop :=
  ∀ p, (kmalloc h size junk).2 = some p → ∃ b ∈ (kmalloc h size junk).1.blocks,
    b.payload ≤ p ∧ p + size ≤ b.finish ∧ b.finish ≤ arenaSize
      ∧ ∀ c ∈ used h.blocks, Apart b c

/-- **WHAT WAS ASKED FOR** is given, in every heap a run leads to, exactly if the size is at most
    2^32 - 16 or no free block holds what its lower half is rounded to. -/
theorem kmalloc_gives_iff (mem : Nat → BitVec 8) (ops : List HeapOp)
    (hops : Along step Releases (boot mem) ops) (size : Nat) (junk : Nat → BitVec 8) :
    Gives (run step (boot mem) ops).heap size junk
      ↔ size ≤ 2 ^ 32 - 16 ∨ ∀ b ∈ (run step (boot mem) ops).heap.blocks,
          b.free = true → b.size < (size + 15) % 2 ^ 32 / 16 * 16 := by
  have h := heapOk_run mem ops hops
  generalize run step (boot mem) ops = w at h ⊢
  rw [← alignUp_eq]
  obtain ⟨he, hno⟩ | ⟨t, bs, h0, hp, he⟩ := kmalloc_cases w.heap size junk
  · refine iff_of_true (fun p hp => ?_) (hno.imp (fun h0 => by omega) id)
    rw [he] at hp
    cases hp
  · obtain ⟨htiles, -, _, -, hused, ⟨b, hb, hfree, hfits⟩, -⟩ :=
      place_ok (alignUp_mod size) hp h.tiles h.settled
    have hend := fun b hb => ((tiles_bounds htiles).2 b hb).2.1
    rw [Gives, he]
    constructor
    · intro hgives
      obtain ⟨c, hc, _, _, hin, -⟩ := hgives _ rfl
      -- no block is as large as such a size
      refine Or.inl ?_
      rw [arenaSize] at hin
      omega
    · rintro (hsize | hnone) _ hp'
      · cases hp'
        have hmem : t ∈ bs := mem_of_mem_filter (hused.mem_iff.mpr (by simp))
        have hasked := le_alignUp hsize
        refine ⟨t, hmem, Nat.le_refl _, ?_, hend t hmem, fun c hc => ?_⟩
        · simp only [Block.payload, Block.finish]
          omega
        · -- the block taken is not among those handed out before
          have hpair : (used bs).Pairwise Apart := (tiles_apart htiles).filter _
          exact rel_of_pairwise_cons (hused.pairwise hpair Or.symm) hc
      · exact absurd hfits (Nat.not_le_of_lt (hnone b hb hfree))

theorem kmalloc_gives_holed : Gives (run step (boot fun _ => 0) holed).heap 150 fun _ => 5 :=
  (kmalloc_gives_iff (fun _ => 0) holed releases_holed 150 fun _ => 5).mpr (Or.inl (by decide))

/-- A request of 4 GB and 16 bytes gets a payload of 16 bytes. -/
theorem huge_request_served : (kmalloc (boot fun _ => 0).heap (2 ^ 32 + 16) fun _ => 0).2 = some 32
      ∧ ¬ Gives (boot fun _ => 0).heap (2 ^ 32 + 16) fun _ => 0 := by
  refine ⟨rfl, fun h => ?_⟩
  obtain ⟨_, -, -, _, hin, -⟩ := h 32 rfl
  rw [arenaSize] at hin
  omega

end KernelHeap
