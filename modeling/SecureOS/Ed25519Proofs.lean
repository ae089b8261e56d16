import Mathlib.Tactic.Ring
import SecureOS.Ed25519Model

/-! # The scalar of a signature

The check on a signature's scalar is on its three highest bits.  Under the key of the neutral
point every scalar that passes it has a signature that is accepted, of whatever message:
`reduced_iff` says for which scalars acceptance means that they are reduced. -/

namespace Ed25519

open List

/-- The order of the base point. -/
def L : Nat := 0x1000000000000000000000000000000014def9dea2f79cd65812631a5cf5d3ed

theorem powLoop_eq (n : Nat) (skip : List Nat) (a : Gf) : powLoop n skip a
      = a ^ (range n).reverse.foldl (fun e i => if i ∈ skip then e + e else e + e + 1) 1 := by
  conv_lhs => rw [powLoop, ← pow_one a]
  refine foldl_hom (a ^ ·) (fun e i => ?_)
  split_ifs
  · rw [pow_add]
  · rw [pow_add, pow_add]

theorem inv25519_mul (u v : Gf) : inv25519 (u * v) = inv25519 u * inv25519 v := by
  simp only [inv25519, powLoop_eq, mul_pow]

/-- What the inverse of a power of two is. -/
theorem inv25519_two_pow (k : Nat) : inv25519 (2 ^ k) * 2 ^ k = 1 := by
  have htwo : inv25519 2 * 2 = 1 := by decide +kernel
  have hpow : inv25519 (2 ^ k) = inv25519 2 ^ k := by
    simp only [inv25519, powLoop_eq]
    exact pow_right_comm 2 k _
  rw [hpow, ← mul_pow, htwo, one_pow]

/-- The bytes of a point depend on the quotients of its coordinates. -/
theorem packPoint_scale (p : Point) (hu : inv25519 u * u = 1) :
    packPoint ⟨u * p.x, u * p.y, u * p.z, t⟩ = packPoint p := by
  have hquot : ∀ v, u * v * inv25519 (u * p.z) = v * inv25519 p.z := by
    intro v
    calc u * v * inv25519 (u * p.z) = inv25519 u * u * (v * inv25519 p.z) := by
          rw [inv25519_mul]
          ring
      _ = v * inv25519 p.z := by rw [hu, one_mul]
  simp only [packPoint, hquot]

/-- The neutral point, in other coordinates. -/
def scaled (v : Gf) : Point := ⟨0, v, v, 0⟩

theorem addPoints_scaled (p : Point) (v : Gf) : addPoints p (scaled v)
      = ⟨v ^ 2 * (addPoints p neutral).x, v ^ 2 * (addPoints p neutral).y,
        v ^ 2 * (addPoints p neutral).z, v ^ 2 * (addPoints p neutral).t⟩ := by
  simp only [addPoints, scaled, neutral, Point.mk.injEq]
  refine ⟨?_, ?_, ?_, ?_⟩ <;> ring

theorem addPoints_scaled_scaled (j k : Nat) : addPoints (scaled (2 ^ j)) (scaled (2 ^ k))
      = scaled (2 ^ (2 * (j + k) + 2)) := by
  simp only [addPoints, scaled, Point.mk.injEq]
  refine ⟨?_, ?_, ?_, ?_⟩ <;> ring

/-- A multiple of the neutral point. -/
theorem scalarmult_neutral (h : BitVec 256) : ∃ k, scalarmult h neutral = scaled (2 ^ k) := by
  have hstart : neutral = scaled (2 ^ 0) := by simp [neutral, scaled]
  refine foldlRecOn (motive := fun p => ∃ k, p = scaled (2 ^ k)) _ _ ⟨0, hstart⟩ ?_
  rintro _ ⟨k, rfl⟩ i -
  dsimp only
  split_ifs
  · exact ⟨_, by rw [hstart, addPoints_scaled_scaled, addPoints_scaled_scaled]⟩
  · exact ⟨_, addPoints_scaled_scaled k k⟩

theorem unpackneg_one : unpackneg 1#256 = some neutral := by
  have hy : unpack25519 1#256 = 1 := by decide +kernel
  have hsq : pow2523 0 = 0 := by
    rw [pow2523, powLoop_eq]
    exact zero_pow (by decide +kernel)
  have hpar : par25519 0 = false := by decide +kernel
  simp [unpackneg, hy, hsq, hpar, neutral]

theorem top_bits_iff (s : BitVec 256) :
    s.extractLsb' 248 8 &&& 0xE0#8 = 0#8 ↔ s.toNat < 2 ^ 253 := by
  have hbyte : ∀ b : BitVec 8, b &&& 0xE0#8 = 0#8 ↔ b.toNat < 32 := by decide
  have hlt := s.isLt
  rw [hbyte, BitVec.extractLsb'_toNat, Nat.shiftRight_eq_div_pow]
  omega

variable (hash : BitVec 256 → BitVec 256 → List (BitVec 8) → BitVec 256) (s : BitVec 256)

/-- The R that goes with a scalar under the key of the neutral point. -/
def commitment : BitVec 256 := packPoint (addPoints (scalarmultBase s) neutral)

/-- Under the key of the neutral point the hash plays no part. -/
theorem verify_commitment (hs : s.toNat < 2 ^ 253) (message : List (BitVec 8)) :
    ed25519Verify hash (some ⟨commitment s, s⟩) message (some 1#256) = .ok := by
  obtain ⟨k, hk⟩ := scalarmult_neutral (hash (commitment s) 1#256 message)
  have hunit : inv25519 ((2 ^ k) ^ 2) * (2 ^ k) ^ 2 = 1 := by
    rw [← pow_mul]
    exact inv25519_two_pow _
  simp only [ed25519Verify, (top_bits_iff s).mpr hs, unpackneg_one, hk, addPoints_scaled,
    packPoint_scale _ hunit]
  simp [commitment]

/-- **SCALARS ARE REDUCED** if they are accepted, exactly if they are below the order or refused for
    their highest bits. -/
theorem reduced_iff : (∀ r message publicKey,
      ed25519Verify hash (some ⟨r, s⟩) message (some publicKey) = .ok → s.toNat < L)
    ↔ s.toNat < L ∨ 2 ^ 253 ≤ s.toNat := by
  constructor
  · intro h
    by_cases hs : s.toNat < 2 ^ 253
    · exact .inl (h _ [] _ (verify_commitment hash s hs []))
    · exact .inr (Nat.le_of_not_lt hs)
  · rintro (h | h) r message publicKey hok
    · exact h
    · have hbits := mt (top_bits_iff s).mp (Nat.not_lt.mpr h)
      simp [ed25519Verify, hbits] at hok

/-- The order itself is accepted as a scalar, with the neutral point as the key and as R. -/
theorem order_accepted : (∀ hash message,
      ed25519Verify hash (some ⟨1#256, BitVec.ofNat 256 L⟩) message (some 1#256) = .ok)
    ∧ ¬ (BitVec.ofNat 256 L).toNat < L := by
  have hr : commitment (BitVec.ofNat 256 L) = 1#256 := by decide +kernel
  refine ⟨fun hash message => ?_, by decide +kernel⟩
  have hok := verify_commitment hash (BitVec.ofNat 256 L) (by decide +kernel) message
  rwa [hr] at hok

end Ed25519
