import SecureOS.DnsModel

/-! # Queries of the name server client

What `dns_build_query` sends is read by the rules of the protocol: labels of 1 to 63 bytes, a
zero byte, the type and the class.  It has the labels of the host, each as it stands between
the dots, so it can be read exactly if those are labels. -/

namespace Dns

open Sof (Byte)
open List

/-- A name on the wire, and what stands behind it. -/
inductive WireName : List Byte → List (List Byte) → List Byte → Prop
  | root : WireName (0 :: rest) [] rest
  | label : 1 ≤ l.length → l.length ≤ 63 → WireName bytes ls rest →
      WireName (BitVec.ofNat 8 l.length :: (l ++ bytes)) (l :: ls) rest

/-- A query with one question, for the address of a name. -/
def IsQuery (msg : List Byte) (labels : List (List Byte)) : Prop :=
  ∃ header name, msg = header ++ name ∧ header.length = 12 ∧ header.getD 2 0 &&& 0xF8 = 0
    ∧ header.drop 4 = [0, 1, 0, 0, 0, 0, 0, 0] ∧ WireName name labels [0, 1, 0, 1]

/-- The labels, joined with dots, are the host, up to a dot at its end. -/
def Joins (labels : List (List Byte)) (host : List Byte) : Prop :=
  [dot].intercalate labels = host ∨ [dot].intercalate labels ++ [dot] = host

/-- What stands between the dots of a host; behind a dot at its end there is no label. -/
def hostLabels : List Byte → List (List Byte)
  | [] => []
  | c :: cs =>
    if c = dot then [] :: hostLabels cs
    else (c :: (hostLabels cs).headD []) :: (hostLabels cs).tail

/-- The labels as they are sent. -/
def wire (labels : List (List Byte)) : List Byte :=
  labels.flatMap (fun l => BitVec.ofNat 8 l.length :: l)

theorem wire_cons (l : List Byte) (ls : List (List Byte)) :
    wire (l :: ls) = BitVec.ofNat 8 l.length :: (l ++ wire ls) := flatMap_cons

theorem hostLabels_eq (h : host ≠ []) : hostLabels host = host.takeWhile (· != dot)
      :: hostLabels (host.drop ((host.takeWhile (· != dot)).length + 1)) := by
  induction host with
  | nil => exact absurd rfl h
  | cons c cs ih =>
    by_cases hc : c = dot
    · simp [hostLabels, hc]
    · have hword : (c :: cs).takeWhile (· != dot) = c :: cs.takeWhile (· != dot) :=
        takeWhile_cons_of_pos (by simpa using hc)
      cases cs with
      | nil => simp [hostLabels, hc]
      | cons =>
        rw [hword, hostLabels, if_neg hc, ih (cons_ne_nil _ _)]
        rfl

/-- The loop writes the labels, or stops where the end of the message finds no room. -/
theorem dnsLabels_spec : ∀ (fuel : Nat) (cursor : List Byte) (pos : Nat), cursor.length ≤ fuel →
    (pos + (wire (hostLabels cursor)).length + 5 ≤ size →
      dnsLabels size fuel cursor pos = some (wire (hostLabels cursor)))
    ∧ (size < pos + (wire (hostLabels cursor)).length + 5 →
      ∀ out, dnsLabels size fuel cursor pos = some out → size < pos + out.length + 5) := by
  intro fuel
  induction fuel with
  | zero =>
    intro cursor pos hfuel
    obtain rfl := eq_nil_of_length_eq_zero (Nat.le_zero.mp hfuel)
    exact ⟨fun _ => rfl, fun h _ hout => Option.some.inj hout ▸ h⟩
  | succ fuel ih =>
    intro cursor pos hfuel
    rw [dnsLabels]
    by_cases hnil : cursor = []
    · rw [hnil, if_neg (by simp)]
      exact ⟨fun _ => rfl, fun h _ hout => Option.some.inj hout ▸ h⟩
    · have hpos := length_pos_iff.mpr hnil
      obtain ⟨hfits, hfull⟩ := ih (cursor.drop ((cursor.takeWhile (· != dot)).length + 1))
        (pos + 1 + (cursor.takeWhile (· != dot)).length) (by rw [length_drop]; omega)
      rw [hostLabels_eq hnil, wire_cons, length_cons, length_append]
      dsimp only
      refine ⟨fun h => ?_, fun h out hout => ?_⟩
      · rw [if_pos ⟨hnil, by omega⟩, if_neg (by omega), hfits (by omega)]
        rfl
      · split_ifs at hout with hgo
        · obtain ⟨later, hlater, rfl⟩ := Option.map_eq_some_iff.mp hout
          have hend := hfull (by omega) later hlater
          rw [length_append, length_cons]
          omega
        · cases hout
          have hstop := not_and.mp hgo hnil
          rw [length_nil]
          omega

/-- The query has every label of the host, unless there is no room for them. -/
theorem dnsBuildQuery_eq (host : List Byte) (txid : BitVec 16) : dnsBuildQuery host dnsQueryMax txid
      = if (wire (hostLabels host)).length ≤ 239 then
          some (dnsHeader txid ++ (wire (hostLabels host) ++ [0, 0, 1, 0, 1])) else none := by
  obtain ⟨hfits, hfull⟩ : _ ∧ (dnsQueryMax < _ → _) :=
    dnsLabels_spec host.length host 12 (Nat.le_refl _)
  rw [dnsBuildQuery, if_neg (by decide)]
  unfold dnsQueryMax at *
  split_ifs with h
  · rw [hfits (by omega)]
    exact if_neg (by omega)
  · cases hout : dnsLabels 256 host.length host 12 with
    | none => rfl
    | some out => exact if_pos (hfull (by omega) out hout)

theorem joins_hostLabels (host : List Byte) : Joins (hostLabels host) host := by
  induction host with
  | nil => exact .inl rfl
  | cons c cs ih =>
    rw [hostLabels]
    cases cs with
    | nil => split_ifs with hc <;> simp [Joins, hostLabels, intercalate, hc]
    | cons =>
      rw [hostLabels_eq (cons_ne_nil _ _)] at ih ⊢
      generalize hostLabels _ = ls at ih ⊢
      split_ifs with hc
      · subst hc
        exact ih.imp (congrArg (dot :: ·)) (congrArg (dot :: ·))
      · cases ls <;> exact ih.imp (congrArg (c :: ·)) (congrArg (c :: ·))

/-- Labels of 1 to 63 bytes are read back. -/
theorem wireName_wire (h : ∀ l ∈ labels, 1 ≤ l.length ∧ l.length ≤ 63) :
    WireName (wire labels ++ 0 :: rest) labels rest := by
  induction labels with
  | nil => exact .root
  | cons l _ ih =>
    obtain ⟨hl, hls⟩ := forall_mem_cons.mp h
    rw [wire_cons, cons_append, append_assoc]
    exact .label hl.1 hl.2 (ih hls)

/-- Where the message can be read, the labels have 1 to 63 bytes. -/
theorem valid_of_wireName : ∀ {labels ls : List (List Byte)}, (wire labels).length < 256 →
    WireName (wire labels ++ 0 :: rest) ls rest' → rest'.length = rest.length →
    ∀ l ∈ labels, 1 ≤ l.length ∧ l.length ≤ 63 := by
  intro labels
  induction labels with
  | nil => exact fun _ _ _ => forall_mem_nil _
  | cons label _ ih =>
    intro _ hlen hname hrest
    rw [wire_cons, length_cons, length_append] at hlen
    rw [wire_cons, cons_append, append_assoc] at hname
    generalize hbytes : BitVec.ofNat 8 label.length :: (label ++ _) = bytes at hname
    cases hname with
    | root =>
      -- too much is left behind the zero
      have hcount := congrArg List.length (cons.inj hbytes).2
      simp only [length_append, length_cons] at hcount
      omega
    | label hlow hhigh hname =>
      obtain ⟨hhead, htail⟩ := cons.inj hbytes
      obtain ⟨rfl, rfl⟩ := append_inj htail (by
        have hsame := congrArg BitVec.toNat hhead
        rw [BitVec.toNat_ofNat, BitVec.toNat_ofNat] at hsame
        omega)
      exact forall_mem_cons.mpr ⟨⟨hlow, hhigh⟩, ih (by omega) hname hrest⟩

theorem valid_of_query (hroom : (wire labels).length ≤ 239)
    (h : IsQuery (dnsHeader txid ++ (wire labels ++ [0, 0, 1, 0, 1])) ls) :
    ∀ l ∈ labels, 1 ≤ l.length ∧ l.length ≤ 63 := by
  obtain ⟨_, _, hmsg, hlen, -, -, hname⟩ := h
  obtain ⟨-, rfl⟩ := append_inj hmsg hlen.symm
  exact valid_of_wireName (by omega) hname rfl

/-- **QUERIES NAME THE HOST** exactly if each label has 1 to 63 bytes or there is no room. -/
theorem query_names_host_iff (host : List Byte) (txid : BitVec 16) :
    (∀ msg, dnsBuildQuery host dnsQueryMax txid = some msg →
      ∃ labels, IsQuery msg labels ∧ Joins labels host)
    ↔ (∀ l ∈ hostLabels host, 1 ≤ l.length ∧ l.length ≤ 63)
      ∨ 239 < (wire (hostLabels host)).length := by
  rw [dnsBuildQuery_eq]
  split_ifs with hroom
  · rw [or_iff_left (Nat.not_lt.mpr hroom)]
    constructor
    · intro h
      obtain ⟨_, hquery, -⟩ := h _ rfl
      exact valid_of_query hroom hquery
    · rintro hvalid _ ⟨⟩
      have hflags : (0x01 : Byte) &&& 0xF8 = 0 := by decide
      exact ⟨_, ⟨_, _, rfl, rfl, hflags, rfl, wireName_wire hvalid⟩, joins_hostLabels host⟩
  · exact iff_of_true nofun (.inr (Nat.not_le.mp hroom))

/-- The host `a..b` is asked for as `a`, with another type and class. -/
theorem empty_label_sent : ∃ msg, dnsBuildQuery [0x61, dot, dot, 0x62] dnsQueryMax 0x1234 = some msg
      ∧ ¬ ∃ labels, IsQuery msg labels := by
  refine ⟨_, dnsBuildQuery_eq .., ?_⟩
  rintro ⟨_, hquery⟩
  exact absurd (valid_of_query (by decide) hquery) (by decide)

end Dns
