import SecureOS.FsTableProofs

/-! # The content of a file

The content of a file is the beginning of the bytes of its chain. -/

namespace Fs

open Function List

open Sof (Byte)
open ByteStore (load store)
open LinkChain (Linked)

/-- The bytes of the clusters of a chain. -/
def chainBytes (data : Nat → Block) (chain : List Nat) : List Byte :=
  chain.flatMap (fun c => load (data c) 0 512)

section Bytes

variable {data : Nat → Block} {chain front : List Nat} {c : Nat}

section

variable (data : Nat → Block)

@[simp] theorem chainBytes_nil : chainBytes data [] = [] := rfl

theorem chainBytes_cons (c : Nat) (chain : List Nat) :
    chainBytes data (c :: chain) = load (data c) 0 512 ++ chainBytes data chain :=
  flatMap_cons

theorem chainBytes_append (front back : List Nat) :
    chainBytes data (front ++ back) = chainBytes data front ++ chainBytes data back :=
  flatMap_append

theorem chainBytes_length (chain : List Nat) :
    (chainBytes data chain).length = 512 * chain.length := by
  induction chain with
  | nil => rfl
  | cons =>
    rw [chainBytes_cons, length_append, ByteStore.load_length, length_cons]
    omega

end

theorem chainBytes_congr (h : ∀ c ∈ chain, data' c = data c) :
    chainBytes data' chain = chainBytes data chain := by
  induction chain with
  | nil => rw [chainBytes_nil, chainBytes_nil]
  | cons c _ ih =>
    rw [chainBytes_cons, chainBytes_cons, h c (mem_cons_self ..),
      ih (fun d hd => h d (mem_cons_of_mem c hd))]

/-- The beginning of a chain's bytes inside its first cluster. -/
theorem take_chainBytes_cons (hn : n ≤ 512) :
    (chainBytes data (c :: chain)).take n = load (data c) 0 n := by
  rw [chainBytes_cons, take_append_of_le_length (by rw [ByteStore.load_length]; exact hn),
    ByteStore.take_load, Nat.min_eq_left hn]

/-- The beginning of a chain's bytes across a front of the chain. -/
theorem take_chainBytes_append (hn : n = 512 * front.length + m) :
    (chainBytes data (front ++ back)).take n
      = chainBytes data front ++ (chainBytes data back).take m := by
  rw [chainBytes_append, take_append, chainBytes_length, hn, Nat.add_sub_cancel_left,
    take_of_length_le (by rw [chainBytes_length]; omega)]

theorem length_le_of_take_chainBytes (h : (chainBytes data chain).take bytes.length = bytes) :
    bytes.length ≤ 512 * chain.length := by
  have hlen := congrArg List.length h
  rw [length_take, chainBytes_length] at hlen
  omega

/-- The bytes before a position: the full clusters and the part of the one it is in. -/
theorem take_chainBytes_split (hlen : front.length = size / 512)
    (hfront : front <+: chain) (hcur : size % 512 ≠ 0 → front ++ [cur] <+: chain) :
    (chainBytes data chain).take size
      = chainBytes data front ++ load (data cur) 0 (size % 512) := by
  have hsize : size = 512 * front.length + size % 512 := by
    rw [hlen]
    exact (Nat.div_add_mod size 512).symm
  by_cases hoff : size % 512 = 0
  · obtain ⟨_, rfl⟩ := hfront
    rw [take_chainBytes_append hsize, hoff]
    rfl
  · obtain ⟨_, rfl⟩ := hcur hoff
    rw [append_assoc, singleton_append, take_chainBytes_append hsize,
      take_chainBytes_cons (Nat.le_of_lt (Nat.mod_lt _ (by omega)))]

end Bytes

/-! ## The copy loop of a read -/

variable {dev : Device} {fat₁ : Fat} {next : Nat}

theorem fsReadChain_chain (hd : Healthy dev)
    (h : ChainOk fat (c :: l)) (hfuel : n ≤ fuel) (hn : n ≤ 512 * (c :: l).length) :
    fsReadChain dev fat fuel c n = .ok ((chainBytes dev.data (c :: l)).take n) := by
  induction fuel generalizing l c n with
  | zero =>
    rw [Nat.le_zero.mp hfuel]
    rfl
  | succ fuel ih =>
    rw [fsReadChain]
    by_cases h0 : n = 0
    · rw [if_pos h0, h0]
      rfl
    rw [if_neg h0, fsReadCluster_ok hd (h.data c (mem_cons_self ..))]
    dsimp only
    by_cases hblock : n ≤ 512
    · rw [if_pos hblock, take_chainBytes_cons hblock]
    cases l with
    | nil => exact absurd hn hblock
    | cons d l =>
      obtain ⟨_, _⟩ := h.tail d (mem_cons_self ..)
      rw [length_cons] at hn
      have hsplit : (chainBytes dev.data ([c] ++ d :: l)).take n = _ :=
        take_chainBytes_append (m := n - 512) (by rw [length_singleton]; omega)
      rw [singleton_append, chainBytes_cons _ c [], chainBytes_nil, append_nil] at hsplit
      rw [if_neg hblock, h.get_next, if_neg (by omega), ih h.rest (by omega) (by omega), hsplit]
      simp only [Except.map]

/-! ## The streaming loop -/

/-- The block the loop writes first. -/
def streamBlock (data : Nat → Block) (cur off : Nat) (content : List Byte) : Block :=
  store (if off = 0 then zeroBlock else data cur) off (content.take (512 - off))

section Stream

variable {fat : Fat} {data data' : Nat → Block} {front back : List Nat}
  {cur off : Nat} {content : List Byte}

theorem load_streamBlock_before (data : Nat → Block) (cur off : Nat) (content : List Byte) :
    load (streamBlock data cur off content) 0 off = load (data cur) 0 off := by
  rw [streamBlock, ByteStore.load_store_of_disjoint (Or.inl (Nat.le_of_eq (Nat.zero_add off)))]
  by_cases h0 : off = 0
  · rw [h0]
    rfl
  · rw [if_neg h0]

/-- The written block: what stood before the offset, and the chunk. -/
theorem load_streamBlock (data : Nat → Block) (cur off : Nat) (content : List Byte) :
    load (streamBlock data cur off content) 0 (off + (content.take (512 - off)).length)
      = load (data cur) 0 off ++ content.take (512 - off) := by
  rw [ByteStore.load_add, load_streamBlock_before, Nat.zero_add]
  congr 1
  exact ByteStore.load_store ..

/-- The loop wrote all of the content. -/
structure StreamOk (fat fat' : Fat) (data data' : Nat → Block) (front : List Nat) (cur : Nat)
    (back back' : List Nat) (off : Nat) (content : List Byte) : Prop where
  grown : Grown fat fat' (front ++ cur :: back) (front ++ cur :: back')
  frame : ∀ c, c ∉ cur :: back' → data' c = data c
  bytes : (chainBytes data' (cur :: back')).take (off + content.length)
    = load (data cur) 0 off ++ content

/-- The loop ran out of clusters: it wrote only free ones and those of the chain from the current
    one. -/
structure StreamFull (fat : Fat) (data data' : Nat → Block) (cur : Nat) (back : List Nat)
    (off : Nat) (content : List Byte) : Prop where
  frame : ∀ c, c ∉ cur :: back → fsFatGetEntry fat c ≠ 0 → data' c = data c
  first : data' cur = streamBlock data cur off content
  long : 512 * ((cur :: back).length + (freeClusters fat).card) < off + content.length

/-- How the loop ends: with all of the content, or without a cluster left. -/
def Streamed (dev : Device) (fat : Fat) (front : List Nat) (cur : Nat) (back : List Nat)
    (off : Nat) (content : List Byte) (result : EStateM.Result FsError Device Fat) : Prop :=
  (∃ fat' data' back', result = .ok fat' { dev with data := data' }
      ∧ StreamOk fat fat' dev.data data' front cur back back' off content) ∨
  (content ≠ [] ∧ ∃ data', result = .error .noSpace { dev with data := data' }
      ∧ StreamFull fat dev.data data' cur back off content)

/-- One round of the loop, up to the next cluster. -/
theorem fsStreamContent_round (hd : Healthy dev) (hcur : DataCluster cur) (hne : content ≠ [])
    (fuel : Nat) : fsStreamContent (fuel + 1) fat cur off content dev
      = (if content.drop (512 - off) = [] then pure fat
          else fsNextOrExtend false fat cur >>= fun r =>
            fsStreamContent fuel r.2 r.1 0 (content.drop (512 - off))) { dev with
          data := update dev.data cur (streamBlock dev.data cur off content) } := by
  have hwrite := fun b => orFail_ok (e := .storage) (fsWriteCluster_ok (b := b) hd hcur)
  rw [fsStreamContent, if_neg hne]
  by_cases h0 : off = 0
  · rw [if_pos h0, streamBlock, if_pos h0]
    exact bind_ok (hwrite _)
  · rw [if_neg h0, streamBlock, if_neg h0]
    refine (bind_ok (orFail_ok (query_ok (fsReadCluster_ok hd hcur)))).trans ?_
    exact bind_ok (hwrite _)

theorem StreamOk.last (h : ChainOk fat (front ++ cur :: back)) (hoff : off ≤ 512)
    (hfit : content.length ≤ 512 - off) :
    StreamOk fat fat data (update data cur (streamBlock data cur off content)) front cur
      back back off content := by
  have htake : content.take (512 - off) = content := take_of_length_le hfit
  refine ⟨Grown.refl h, fun c hc => ?_, ?_⟩
  · rw [mem_cons, not_or] at hc
    exact update_of_ne hc.1 ..
  · rw [take_chainBytes_cons (by omega), update_self]
    have hblock := load_streamBlock data cur off content
    rwa [htake] at hblock

section Round

variable (hoff : off ≤ 512) (hlong : 512 - off < content.length)
  (hleft : (cur :: back).length + (freeClusters fat).card
    ≤ (cur :: next :: back₁).length + (freeClusters fat₁).card)
  (hstep : Grown fat fat₁ (front ++ cur :: back) (front ++ cur :: next :: back₁))
include hoff hlong hstep

/-- A round before the loop goes on at the next cluster. -/
theorem StreamOk.round
    (hrest : StreamOk fat₁ fat' (update data cur (streamBlock data cur off content)) data'
      (front ++ [cur]) next back₁ back' 0 (content.drop (512 - off))) :
    StreamOk fat fat' data data' front cur back (next :: back') off content := by
  have hassoc : ∀ l, front ++ [cur] ++ l = front ++ cur :: l := fun l => by simp
  have hgrown := hrest.grown
  rw [hassoc, hassoc] at hgrown
  have hcur : cur ∉ next :: back' := (hgrown.ok.linked.suffix (cons_ne_nil _ _)).head_notMem
  have hchunk : (content.take (512 - off)).length = 512 - off := by
    rw [length_take]
    omega
  refine ⟨hstep.trans hgrown, fun c hc => ?_, ?_⟩
  · rw [mem_cons, not_or] at hc
    rw [hrest.frame c hc.2, update_of_ne hc.1]
  · have hblock := load_streamBlock data cur off content
    have hbytes := hrest.bytes
    rw [hchunk, show off + (512 - off) = 512 by omega] at hblock
    rw [length_drop, Nat.zero_add] at hbytes
    rw [chainBytes_cons, hrest.frame cur hcur, update_self, hblock, take_append,
      take_of_length_le (by
        rw [length_append, ByteStore.load_length]
        omega),
      length_append, ByteStore.load_length, hchunk,
      show off + content.length - (off + (512 - off)) = content.length - (512 - off) by omega,
      hbytes, append_assoc]
    exact congrArg (load (data cur) 0 off ++ ·) (take_append_drop ..)

include hleft

/-- A round before the loop runs out of clusters. -/
theorem StreamFull.round
    (hrest : StreamFull fat₁ (update data cur (streamBlock data cur off content)) data'
      next back₁ 0 (content.drop (512 - off))) :
    StreamFull fat data data' cur back off content := by
  have hcur : cur ∉ next :: back₁ := (hstep.ok.linked.suffix (cons_ne_nil _ _)).head_notMem
  have hcur₁ : fsFatGetEntry fat₁ cur ≠ 0 := hstep.ok.used (by simp)
  refine ⟨fun c hc hused => ?_, ?_, ?_⟩
  · rw [mem_cons, not_or] at hc
    by_cases hin : c ∈ front ++ cur :: next :: back₁
    · -- in the front of the chain: not written, and not the end of the chain
      have hfront : c ∈ front := by
        by_contra hno
        rcases hstep.fresh c hin with hold | ⟨_, hfree⟩
        · rcases mem_append.mp hold with hf | hb
          · exact hno hf
          · exact (mem_cons.mp hb).elim hc.1 hc.2
        · exact hused hfree
      have hout : c ∉ next :: back₁ := fun hb =>
        (nodup_append.mp hstep.ok.nodup).2.2 c hfront c (mem_cons_of_mem _ hb) rfl
      rw [hrest.frame c hout (hstep.ok.used hin), update_of_ne hc.1]
    · have hsame := hstep.frame c hin
      have hout : c ∉ next :: back₁ := fun hb => hin (mem_append_right _ (mem_cons_of_mem _ hb))
      rw [hrest.frame c hout (by rw [hsame]; exact hused), update_of_ne hc.1]
  · rw [hrest.frame cur hcur hcur₁, update_self]
  · have hmore := hrest.long
    rw [length_drop] at hmore
    simp only [length_cons] at hmore hleft ⊢
    omega

/-- **ONE ROUND**: the loop ends as it does from the next cluster on. -/
theorem Streamed.round
    (hrest : Streamed { dev with
        data := update dev.data cur (streamBlock dev.data cur off content) }
      fat₁ (front ++ [cur]) next back₁ 0 (content.drop (512 - off)) result) :
    Streamed dev fat front cur back off content result := by
  have hne : content ≠ [] := ne_nil_of_length_pos (by omega)
  rcases hrest with ⟨fat', data', back', hrun, hs⟩ | ⟨_, data', hrun, hs⟩
  · exact .inl ⟨fat', data', next :: back', hrun, StreamOk.round hoff hlong hstep hs⟩
  · exact .inr ⟨hne, data', hrun, StreamFull.round hoff hlong hleft hstep hs⟩

end Round

theorem Streamed.nil (h : ChainOk fat (front ++ cur :: back)) (hoff : off ≤ 512) :
    Streamed dev fat front cur back off [] (.ok fat dev) := by
  refine .inl ⟨fat, dev.data, back, rfl, Grown.refl h, fun _ _ => rfl, ?_⟩
  rw [length_nil, Nat.add_zero, append_nil, take_chainBytes_cons hoff]

/-- No cluster is left for the next round. -/
theorem Streamed.full (hfree : fsFindFreeCluster fat = none) (hlong : 512 - off < content.length) :
    Streamed dev fat front cur [] off content (.error .noSpace { dev with
      data := update dev.data cur (streamBlock dev.data cur off content) }) := by
  have hne : content ≠ [] := ne_nil_of_length_pos (by omega)
  refine .inr ⟨hne, _, rfl, fun c hc _ => ?_, update_self .., ?_⟩
  · rw [mem_singleton] at hc
    exact update_of_ne hc ..
  · rw [freeClusters_eq_empty hfree, Finset.card_empty, length_singleton]
    omega

/-- **THE STREAMING LOOP** writes the content, or runs out of clusters. -/
theorem fsStreamContent_spec (fuel : Nat) (hd : Healthy dev)
    (h : ChainOk fat (front ++ cur :: back)) (hoff : off < 512) (hlen : content.length ≤ fuel) :
    Streamed dev fat front cur back off content (fsStreamContent fuel fat cur off content dev) := by
  induction fuel generalizing dev fat front back cur off content with
  | zero =>
    obtain rfl := length_eq_zero_iff.mp (Nat.le_zero.mp hlen)
    exact Streamed.nil h (Nat.le_of_lt hoff)
  | succ fuel ih =>
    by_cases hnil : content = []
    · subst hnil
      exact Streamed.nil h (Nat.le_of_lt hoff)
    rw [fsStreamContent_round hd (h.data cur (by simp)) hnil]
    by_cases hrest : content.drop (512 - off) = []
    · rw [if_pos hrest]
      exact .inl ⟨fat, _, back, rfl, StreamOk.last h (Nat.le_of_lt hoff) (drop_eq_nil_iff.mp hrest)⟩
    rw [if_neg hrest]
    have hlong : 512 - off < content.length := by
      rw [drop_eq_nil_iff] at hrest
      omega
    have hfuel : (content.drop (512 - off)).length ≤ fuel := by
      rw [length_drop]
      omega
    rcases fsNextOrExtend_spec false (hd.with ..) h with
      ⟨next, _, back₁, _, hnext, hstep, hleft, _, hdata⟩ | ⟨rfl, hfree, hfull⟩
    · have hok := hstep.ok
      rw [show front ++ cur :: next :: back₁ = front ++ [cur] ++ next :: back₁ by simp] at hok
      rw [bind_ok hnext, hdata rfl]
      refine Streamed.round (Nat.le_of_lt hoff) hlong hleft hstep ?_
      exact ih (hd.with ..) hok (by omega) hfuel
    · rw [bind_error hfull]
      exact Streamed.full hfree hlong

end Stream

/-! ## The walk to the start -/

/-- A cluster in use stays in use when a chain grows. -/
theorem Grown.used (h : Grown fat fat' chain chain') (hused : fsFatGetEntry fat c ≠ 0) :
    fsFatGetEntry fat' c ≠ 0 := by
  by_cases hin : c ∈ chain'
  · exact h.ok.used hin
  · rw [h.frame c hin]
    exact hused

/-- **THE WALK** goes as many clusters on as it is told, through new clusters where the chain ends,
    or runs out of clusters; it writes no cluster that was in use. -/
theorem fsWalkToStart_spec : ∀ (k : Nat) {dev : Device} {fat : Fat} {front back : List Nat}
    {cur : Nat}, Healthy dev → ChainOk fat (front ++ cur :: back) →
    (∃ fat' data' front' cur' back', fsWalkToStart k fat cur dev
        = .ok (cur', fat') { dev with data := data' }
      ∧ Grown fat fat' (front ++ cur :: back) (front' ++ cur' :: back')
      ∧ front'.length = front.length + k
      ∧ ∀ c, fsFatGetEntry fat c ≠ 0 → data' c = dev.data c) ∨
    (∃ data', fsWalkToStart k fat cur dev = .error .noSpace { dev with data := data' }
      ∧ ∀ c, fsFatGetEntry fat c ≠ 0 → data' c = dev.data c) := by
  intro k
  induction k with
  | zero =>
    intro dev fat front back cur _ h
    exact .inl ⟨fat, dev.data, front, cur, back, rfl, Grown.refl h, rfl, fun _ _ => rfl⟩
  | succ _ ih =>
    intro dev _ front _ cur hd h
    rw [fsWalkToStart]
    rcases fsNextOrExtend_spec true hd h with
      ⟨next, _, back₁, data₁, hnext, hstep, _, hsame, _⟩ | ⟨_, _, hfull⟩
    · have hassoc : ∀ l, front ++ cur :: l = front ++ [cur] ++ l := fun l => by simp
      have hok := hstep.ok
      rw [hassoc (next :: back₁)] at hok
      have hd₁ : Healthy { dev with data := data₁ } := hd.with ..
      refine (bind_ok hnext) ▸ ?_
      rcases ih hd₁ hok with
        ⟨fat', data', front', cur', back', hrun, hgrown, hlen, hdata⟩ | ⟨data', hrun, hdata⟩
      · rw [← hassoc] at hgrown
        rw [length_append, length_singleton] at hlen
        exact .inl ⟨fat', data', front', cur', back', hrun, hstep.trans hgrown, by omega,
          fun c hused => (hdata c (hstep.used hused)).trans (hsame c hused)⟩
      · exact .inr ⟨data', hrun, fun c hused => (hdata c (hstep.used hused)).trans (hsame c hused)⟩
    · exact .inr ⟨dev.data, bind_error hfull, fun _ _ => rfl⟩

/-! ## The whole write -/

section Write

variable {fat fat' : Fat} {data data' data₁ : Nat → Block} {chain : List Nat}
  {first : Nat} {old content : List Byte}

/-- A file was written: its chain now, the clusters taken and given back, and what stayed. -/
structure Rewritten (fat fat' : Fat) (data data' : Nat → Block) (chain chain' : List Nat)
    (new : List Byte) : Prop where
  ok : ChainOk fat' chain'
  head : chain'.head? = chain.head?
  fresh : ∀ c ∈ chain', c ∈ chain ∨ (Allocatable c ∧ fsFatGetEntry fat c = 0)
  freed : ∀ c ∈ chain, c ∉ chain' → fsFatGetEntry fat' c = 0
  frame : ∀ c, c ∉ chain → c ∉ chain' → fsFatGetEntry fat' c = fsFatGetEntry fat c
  others : ∀ c, c ∉ chain → fsFatGetEntry fat c ≠ 0 → data' c = data c
  bytes : (chainBytes data' chain').take new.length = new

/-- A write ran out of clusters: outside the chain only free clusters were written, and an append
    left the content.  An overwrite had more to write than the chain and the free clusters hold. -/
structure WriteFull (fat : Fat) (data data' : Nat → Block) (chain : List Nat)
    (old content : List Byte) (append : Bool) : Prop where
  others : ∀ c, c ∉ chain → fsFatGetEntry fat c ≠ 0 → data' c = data c
  kept : append = true → (chainBytes data' chain).take old.length = old
  first : append = false → ∀ c, chain.head? = some c → data' c = streamBlock data c 0 content
  long : append = false → 512 * (chain.length + (freeClusters fat).card) < content.length

/-- The table after truncation, outside the first cluster. -/
theorem get_truncated (h : ChainOk fat (first :: rest)) (hc : c ≠ first) :
    fsFatGetEntry (fsFatSetEntry (freeAll fat rest) first fatEntryEoc) c
      = if c ∈ rest then 0 else fsFatGetEntry fat c := by
  rw [get_set_of_ne hc]
  by_cases hin : c ∈ rest
  · rw [if_pos hin, get_freeAll_of_mem (h.tail c hin).2 rest fat hin]
  · rw [if_neg hin, get_freeAll_of_notMem rest fat hin]

variable {back : List Nat}

/-- An overwrite starts from the chain of the first cluster alone. -/
theorem Rewritten.overwrite (h : ChainOk fat (first :: rest))
    (hs : StreamOk (fsFatSetEntry (freeAll fat rest) first fatEntryEoc) fat' data data' [] first []
      back 0 content) : Rewritten fat fat' data data' (first :: rest) (first :: back) content := by
  have hgrown := hs.grown
  have hget := fun c (hc : c ≠ first) => get_truncated h hc
  refine ⟨hgrown.ok, rfl, fun c hc => ?_, fun c hc hout => ?_, fun c hc hout => ?_,
    fun c hc hused => ?_, ?_⟩
  · by_cases hfirst : c = first
    · exact .inl (by rw [hfirst]; exact mem_cons_self ..)
    · rcases hgrown.fresh c hc with hin | ⟨halloc, hfree⟩
      · exact absurd (mem_singleton.mp hin) hfirst
      · rw [hget c hfirst] at hfree
        by_cases hin : c ∈ rest
        · exact .inl (mem_cons_of_mem _ hin)
        · rw [if_neg hin] at hfree
          exact .inr ⟨halloc, hfree⟩
  · have hfirst : c ≠ first := by
      rintro rfl
      exact hout (mem_cons_self ..)
    have hin : c ∈ rest := (mem_cons.mp hc).resolve_left hfirst
    rw [hgrown.frame c hout, hget c hfirst, if_pos hin]
  · rw [mem_cons, not_or] at hc
    rw [hgrown.frame c hout, hget c hc.1, if_neg hc.2]
  · rw [mem_cons, not_or] at hc
    refine hs.frame c (hgrown.notMem (fun hin => hc.1 (mem_singleton.mp hin)) ?_)
    rw [hget c hc.1, if_neg hc.2]
    exact hused
  · have hbytes := hs.bytes
    rw [Nat.zero_add] at hbytes
    exact hbytes

theorem WriteFull.overwrite (h : ChainOk fat (first :: rest))
    (hs : StreamFull (fsFatSetEntry (freeAll fat rest) first fatEntryEoc) data data' first [] 0
      content) : WriteFull fat data data' (first :: rest) old content false := by
  refine ⟨fun c hc hused => ?_, (fun happ => by cases happ), fun _ c hc => ?_, fun _ => ?_⟩
  · rw [mem_cons, not_or] at hc
    refine hs.frame c (fun hin => hc.1 (mem_singleton.mp hin)) ?_
    rw [get_truncated h hc.1, if_neg hc.2]
    exact hused
  · cases hc
    exact hs.first
  · have hlong := hs.long
    have hcard := card_freeClusters_truncated h
    rw [length_singleton] at hlong
    rw [length_cons]
    omega

variable {front : List Nat} {cur : Nat}

/-- The place the walk leads to: in front of it is the beginning of the old chain. -/
theorem walk_place (hold : (chainBytes data chain).take old.length = old)
    (hgrown : Grown fat fat' chain (front ++ cur :: back))
    (hlen : front.length = old.length / 512) :
    front <+: chain ∧ (old.length % 512 ≠ 0 → front ++ [cur] <+: chain) := by
  have hle := length_le_of_take_chainBytes hold
  have hpre : front <+: front ++ cur :: back := prefix_append ..
  have hpre' : front ++ [cur] <+: front ++ cur :: back := ⟨back, by simp⟩
  refine ⟨prefix_of_prefix_length_le hpre hgrown.extends_ (by omega), fun hoff => ?_⟩
  refine prefix_of_prefix_length_le hpre' hgrown.extends_ ?_
  rw [length_append, length_singleton]
  omega

/-- The old content, read off the place the walk leads to, in any data that agree in front of the
    place and in the part of its cluster before the end of the file. -/
theorem old_at_place (hold : (chainBytes data chain).take old.length = old)
    (hlen : front.length = old.length / 512) (hpre : front <+: chain)
    (hcur : old.length % 512 ≠ 0 → front ++ [cur] <+: chain)
    (hfront : ∀ c ∈ front, data' c = data c) (hkept : old.length % 512 ≠ 0 →
      load (data' cur) 0 (old.length % 512) = load (data cur) 0 (old.length % 512)) :
    chainBytes data' front ++ load (data' cur) 0 (old.length % 512) = old := by
  have hsplit : (chainBytes data chain).take old.length = _ := take_chainBytes_split hlen hpre hcur
  rw [hold] at hsplit
  rw [chainBytes_congr hfront]
  by_cases hoff : old.length % 512 = 0
  · rw [hoff] at hsplit ⊢
    exact hsplit.symm
  · rw [hkept hoff]
    exact hsplit.symm

section

variable (h : ChainOk fat chain) (hold : (chainBytes data chain).take old.length = old)
  (hwalk : Grown fat fat₁ chain (front ++ cur :: back)) (hlen : front.length = old.length / 512)
  (hdata : ∀ c, fsFatGetEntry fat c ≠ 0 → data₁ c = data c)
include h hold hwalk hlen hdata

/-- An append at the place the walk leads to. -/
theorem Rewritten.append
    (hs : StreamOk fat₁ fat' data₁ data' front cur back back' (old.length % 512) content) :
    Rewritten fat fat' data data' chain (front ++ cur :: back') (old ++ content) := by
  obtain ⟨hpre, hcur⟩ := walk_place hold hwalk hlen
  have hgrown := hwalk.trans hs.grown
  have hsize : (old ++ content).length
      = 512 * front.length + (old.length % 512 + content.length) := by
    rw [length_append, hlen, ← Nat.add_assoc, Nat.div_add_mod]
  -- the clusters in front of the place are not written
  have hfront : ∀ c ∈ front, data' c = data c := by
    intro c hc
    have hout : c ∉ cur :: back' := fun hin => (nodup_append.mp hgrown.ok.nodup).2.2 c hc c hin rfl
    rw [hs.frame c hout, hdata c (h.used (hpre.subset hc))]
  have hplace : chainBytes data₁ front ++ load (data₁ cur) 0 (old.length % 512) = old := by
    refine old_at_place hold hlen hpre hcur (fun c hc => hdata c (h.used (hpre.subset hc))) ?_
    intro hoff
    rw [hdata cur (h.used ((hcur hoff).subset (by simp)))]
  refine ⟨hgrown.ok, ?_, hgrown.fresh, fun c hc hout => ?_, fun c hc hout => ?_,
    fun c hc hused => ?_, ?_⟩
  · obtain ⟨_, hext⟩ := hgrown.extends_
    rw [← hext, List.head?_append_of_ne_nil _ h.linked.ne_nil]
  · exact absurd (hgrown.extends_.subset hc) hout
  · exact hgrown.frame c hout
  · have hout := hgrown.notMem hc hused
    rw [hs.frame c (fun hin => hout (mem_append_right _ hin)), hdata c hused]
  · rw [take_chainBytes_append hsize, hs.bytes, ← append_assoc,
      chainBytes_congr (fun c hc => (hfront c hc).trans (hdata c (h.used (hpre.subset hc))).symm),
      hplace]

theorem WriteFull.append (hs : StreamFull fat₁ data₁ data' cur back (old.length % 512) content) :
    WriteFull fat data data' chain old content true := by
  obtain ⟨hpre, hcur⟩ := walk_place hold hwalk hlen
  refine ⟨fun c hc hused => ?_, fun _ => ?_, (fun happ => by cases happ),
    (fun happ => by cases happ)⟩
  · have hout := hwalk.notMem hc hused
    rw [hs.frame c (fun hin => hout (mem_append_right _ hin)) (hwalk.used hused), hdata c hused]
  · have hsplit : (chainBytes data' chain).take old.length = _ :=
      take_chainBytes_split hlen hpre hcur
    rw [hsplit]
    refine old_at_place hold hlen hpre hcur (fun c hc => ?_) (fun hoff => ?_)
    · have hout : c ∉ cur :: back := fun hin => (nodup_append.mp hwalk.ok.nodup).2.2 c hc c hin rfl
      have hused := h.used (hpre.subset hc)
      rw [hs.frame c hout (hwalk.used hused), hdata c hused]
    · rw [hs.first, load_streamBlock_before, hdata cur (h.used ((hcur hoff).subset (by simp)))]

end

/-- The content a write leaves. -/
def written (old content : List Byte) (append : Bool) : List Byte :=
  if append then old ++ content else content

/-- **THE WRITE OF A CONTENT** ends with the new content, or runs out of clusters. -/
theorem fsWriteEntryContent_spec (hd : Healthy dev) (h : ChainOk fat (first :: rest))
    (hfirst : Allocatable first)
    (hold : (chainBytes dev.data (first :: rest)).take old.length = old) (content : List Byte)
    (append : Bool) :
    (∃ fat' data' chain', fsWriteEntryContent first content append old.length fat dev
        = .ok ((written old content append).length, fat') { dev with data := data' }
      ∧ Rewritten fat fat' dev.data data' (first :: rest) chain' (written old content append)) ∨
    (content ≠ [] ∨ append = true) ∧
    ∃ data', fsWriteEntryContent first content append old.length fat dev
        = .error .noSpace { dev with data := data' }
      ∧ WriteFull fat dev.data data' (first :: rest) old content append := by
  -- a content on a chain is far below the range of the size field
  have hmod : ∀ {fat' : Fat} {data' : Nat → Block} {chain' : List Nat} {new : List Byte},
      Rewritten fat fat' dev.data data' (first :: rest) chain' new →
      new.length % 2 ^ 32 = new.length := by
    intro fat' data' _ _ hrw
    have hle := length_le_of_take_chainBytes hrw.bytes
    have hchain := hrw.ok.length_le
    exact Nat.mod_eq_of_lt (by omega)
  rw [fsWriteEntryContent, if_neg hfirst.inRange]
  cases append with
  | false =>
    have htrunc : query (fun _ => truncateChain first fat) dev = .ok _ dev :=
      query_ok (truncateChain_chain h)
    simp only [Bool.false_eq_true, if_false, Nat.zero_add]
    have hchain : ChainOk _ ([] ++ first :: []) := h.truncated
    rcases fsStreamContent_spec content.length hd hchain (show 0 < 512 by omega)
        (Nat.le_refl _) with
      ⟨fat', data', back', hrun, hs⟩ | ⟨hne, data', hrun, hs⟩
    · have hrw := Rewritten.overwrite h hs
      refine .inl ⟨fat', data', first :: back', ?_, hrw⟩
      refine (bind_ok htrunc).trans ?_
      refine (bind_ok hrun).trans ?_
      rw [hmod hrw]
      rfl
    · refine .inr ⟨.inl hne, data', ?_, WriteFull.overwrite h hs⟩
      refine (bind_ok htrunc).trans ?_
      refine (bind_ok (pure_apply ..)).trans ?_
      exact bind_error hrun
  | true =>
    simp only [if_true]
    have hchain : ChainOk fat ([] ++ first :: rest) := h
    have hoff : old.length % 512 < 512 := Nat.mod_lt _ (by omega)
    rcases fsWalkToStart_spec (old.length / 512) hd hchain with
      ⟨_, data₁, front, cur, _, hwalk, hgrown, hlen, hdata⟩ | ⟨data', hwalk, hdata⟩
    · rw [length_nil, Nat.zero_add] at hlen
      have hd₁ : Healthy { dev with data := data₁ } := hd.with ..
      rcases fsStreamContent_spec content.length hd₁ hgrown.ok hoff (Nat.le_refl _) with
        ⟨fat', data', back', hrun, hs⟩ | ⟨_, data', hrun, hs⟩
      · have hrw := Rewritten.append h hold hgrown hlen hdata hs
        refine .inl ⟨fat', data', front ++ cur :: back', ?_, hrw⟩
        refine (bind_ok hwalk).trans ?_
        refine (bind_ok hrun).trans ?_
        rw [← length_append, hmod hrw]
        rfl
      · refine .inr ⟨.inr trivial, data', ?_, WriteFull.append h hold hgrown hlen hdata hs⟩
        refine (bind_ok hwalk).trans ?_
        exact bind_error hrun
    · -- the walk itself ran out of clusters
      refine .inr ⟨.inr trivial, data', ?_, fun c _ hused => hdata c hused, fun _ => ?_,
        (fun happ => by cases happ), (fun happ => by cases happ)⟩
      · refine (bind_ok (pure_apply ..)).trans ?_
        exact bind_error hwalk
      · rw [chainBytes_congr (fun c hc => hdata c (h.used hc)), hold]

end Write

end Fs
