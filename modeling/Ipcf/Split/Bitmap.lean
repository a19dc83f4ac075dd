import Ipcf.Framework.Buffer
import Mathlib.Tactic.Ring

/-!
# The slice bitmap

`set_bit`, `find_first_zero` and `test_all_bits_set` of `split.c`, over an array of `w` 32-bit
words, and the set they implement: `bit map i` is bit `i mod 32` of word `i div 32`, and no bit
is set past the end of the array.

The two scanning functions come with the words they read (`…Run`), because the bounds of the
receive path are a question about those reads.  `mem_missing_iff` and `testAllBitsSet_iff` are
what the sessions use: the scan finds exactly the clear bits below its bound, while the
completion test compares whole words and so also asks the bits above `n` of the last word to be
clear.  As operations on sets of positions the two are right up to this
(`setBits_scans_iff`).
-/

namespace Ipcf

/-- `u32 bitmap[w]` -/
abbrev Bitmap (w : ℕ) := Buffer (BitVec 32) w

variable {w : ℕ}

/-- Bit `i` of the bitmap. -/
def bit (map : Bitmap w) (i : ℕ) : Bool := (map.get (i / 32) 0).getLsbD (i % 32)

/-- `map[k>>5] |= 1L << (k & 0x1f)` -/
def setBit (map : Bitmap w) (k : UInt8) : Bitmap w :=
  map.modify (k.toNat / 32) (· ||| 1#32 <<< (k.toNat % 32))

/-- The loop of `find_first_zero` at word `x` and position `k`, with the words it reads; `n`
bounds the iterations that are left, as `k` grows in each and stays below `max`. -/
def findFirstZeroLoop (map : Bitmap w) (last max : ℕ) : (n x k : ℕ) → ℤ × List ℕ
  | 0, _, _ => (-1, [])
  | n + 1, x, k =>
    if x ≤ last ∧ k < max then
      if !(map.get x 0).getLsbD (k % 32) then (k, [x])
      else
        let rest := findFirstZeroLoop map last max n (if (k + 1) % 32 = 0 then x + 1 else x) (k + 1)
        (rest.1, x :: rest.2)
    else (-1, [])

/-- `find_first_zero` and the words it reads. -/
def findFirstZeroRun (map : Bitmap w) (k max : UInt8) : ℤ × List ℕ :=
  findFirstZeroLoop map (max.toNat / 32) max.toNat (max.toNat - k.toNat) (k.toNat / 32) k.toNat

def findFirstZero (map : Bitmap w) (k max : UInt8) : ℤ := (findFirstZeroRun map k max).1

/-- The loop of `test_all_bits_set` over the whole words from `i` on, `n` of them left. -/
def testWordsLoop (map : Bitmap w) : (n i : ℕ) → Bool × List ℕ
  | 0, _ => (true, [])
  | n + 1, i =>
    if ~~~(map.get i 0) ≠ 0 then (false, [i])
    else
      let rest := testWordsLoop map n (i + 1)
      (rest.1, i :: rest.2)

/-- `~(((~0L) >> t) << t)` -/
def lowMask (t : ℕ) : BitVec 64 := ~~~((~~~0#64).sshiftRight t <<< t)

/-- `test_all_bits_set` and the words it reads. -/
def testAllBitsSetRun (map : Bitmap w) (n : UInt8) : Bool × List ℕ :=
  let k := n.toNat / 32
  let t := n.toNat % 32
  let words := testWordsLoop map k 0
  if !words.1 then (false, words.2)
  else if t ≠ 0 then ((map.get k 0).setWidth 64 == lowMask t, words.2 ++ [k])
  else (true, words.2)

def testAllBitsSet (map : Bitmap w) (n : UInt8) : Bool := (testAllBitsSetRun map n).1

/-! ## Setting a bit -/

lemma bit_eq_false (map : Bitmap w) {i : ℕ} (h : 32 * w ≤ i) : bit map i = false := by
  rw [bit, Buffer.get, List.getD_eq_getElem?_getD,
    List.getElem?_eq_none (by rw [map.size_eq]; omega)]
  simp

@[simp] lemma bit_clear (i : ℕ) : bit (Buffer.fill w 0#32) i = false := by
  by_cases h : i / 32 < w
  · simp [bit, h]
  · exact bit_eq_false _ (by omega)

lemma bit_setBit (map : Bitmap w) (k : UInt8) (i : ℕ) :
    bit (setBit map k) i = (decide (i = k.toNat ∧ i < 32 * w) || bit map i) := by
  rw [bit, setBit, Buffer.get_modify]
  by_cases hw : k.toNat / 32 = i / 32 ∧ i / 32 < w
  · rw [if_pos hw, BitVec.getLsbD_or, ← BitVec.twoPow_eq, BitVec.getLsbD_twoPow, Bool.or_comm]
    congr 1
    rw [decide_eq_true (by omega : k.toNat % 32 < 32), Bool.true_and]
    apply decide_eq_decide.2
    omega
  · rw [if_neg hw, decide_eq_false (by omega), Bool.false_or]
    rfl

/-! ## Scanning for a clear bit -/

/-- The scan at position `k` reads bit `k`, and the word index keeps in step with it. -/
lemma findFirstZeroLoop_succ (map : Bitmap w) {max n k : ℕ} (hk : k < max) :
    findFirstZeroLoop map (max / 32) max (n + 1) (k / 32) k =
      if bit map k = false then ((k : ℤ), [k / 32])
      else ((findFirstZeroLoop map (max / 32) max n ((k + 1) / 32) (k + 1)).1,
        k / 32 :: (findFirstZeroLoop map (max / 32) max n ((k + 1) / 32) (k + 1)).2) := by
  have hstep : (if (k + 1) % 32 = 0 then k / 32 + 1 else k / 32) = (k + 1) / 32 := by
    split_ifs <;> omega
  have hbit : (map.get (k / 32) 0).getLsbD (k % 32) = bit map k := rfl
  rw [findFirstZeroLoop, if_pos ⟨by omega, hk⟩, hstep, hbit]
  cases bit map k <;> simp

/-- The scan from `k` finds the first clear bit below `max`, or none when all are set. -/
lemma findFirstZeroLoop_spec (map : Bitmap w) (max n k : ℕ) (hn : n = max - k) :
    ((findFirstZeroLoop map (max / 32) max n (k / 32) k).1 = -1 ∧
        ∀ i, k ≤ i → i < max → bit map i = true) ∨
      ∃ i : ℕ, (findFirstZeroLoop map (max / 32) max n (k / 32) k).1 = (i : ℤ) ∧
        k ≤ i ∧ i < max ∧ bit map i = false ∧ ∀ j, k ≤ j → j < i → bit map j = true := by
  induction n generalizing k with
  | zero =>
    left
    exact ⟨by simp [findFirstZeroLoop], fun i h1 h2 => by omega⟩
  | succ n ih =>
    rw [findFirstZeroLoop_succ map (by omega)]
    by_cases hb : bit map k = false
    · right
      rw [if_pos hb]
      exact ⟨k, rfl, Nat.le_refl _, by omega, hb, fun j h1 h2 => by omega⟩
    · rw [if_neg hb]
      have hk : bit map k = true := by simpa using hb
      have hset : ∀ {i j : ℕ}, k ≤ j → (k + 1 ≤ j → j < i → bit map j = true) → j < i →
          bit map j = true := by
        intro i j hj hrest hi
        by_cases he : j = k
        · rw [he]
          exact hk
        · exact hrest (by omega) hi
      rcases ih (k + 1) (by omega) with ⟨hret, hall⟩ | ⟨i, hret, hki, hi, hclear, hall⟩
      · left
        exact ⟨hret, fun i h1 h2 => hset h1 (hall i) h2⟩
      · right
        exact ⟨i, hret, by omega, hi, hclear, fun j h1 h2 => hset h1 (hall j) h2⟩

/-- `find_first_zero` returns the least clear position of `[k, max)`, or `-1`. -/
lemma findFirstZero_spec (map : Bitmap w) (k max : UInt8) :
    (findFirstZero map k max = -1 ∧
        ∀ i, k.toNat ≤ i → i < max.toNat → bit map i = true) ∨
      ∃ i : ℕ, findFirstZero map k max = (i : ℤ) ∧
        k.toNat ≤ i ∧ i < max.toNat ∧ bit map i = false ∧
        ∀ j, k.toNat ≤ j → j < i → bit map j = true :=
  findFirstZeroLoop_spec map max.toNat _ k.toNat rfl

/-- Every word the scan reads holds a position below its bound. -/
lemma findFirstZeroRun_words (map : Bitmap w) (k max : UInt8) :
    ∀ x ∈ (findFirstZeroRun map k max).2, 32 * x < max.toNat := by
  suffices h : ∀ (n k : ℕ), n = max.toNat - k →
      ∀ x ∈ (findFirstZeroLoop map (max.toNat / 32) max.toNat n (k / 32) k).2, 32 * x < max.toNat
    from h _ k.toNat rfl
  intro n
  induction n with
  | zero => simp [findFirstZeroLoop]
  | succ n ih =>
    intro k hn x hx
    rw [findFirstZeroLoop_succ map (by omega)] at hx
    split_ifs at hx with hb
    · have : x = k / 32 := by simpa using hx
      omega
    · rcases List.mem_cons.1 hx with rfl | hx
      · omega
      · exact ih (k + 1) (by omega) x hx

/-! ## Testing for completion -/

lemma getLsbD_lowMask {t i : ℕ} (ht : t < 64) : (lowMask t).getLsbD i = decide (i < t) := by
  have hones : (~~~0#64).sshiftRight t = ~~~0#64 := by
    rw [← BitVec.not_sshiftRight, BitVec.zero_sshiftRight]
  rw [lowMask, hones, BitVec.getLsbD_not, BitVec.getLsbD_shiftLeft, BitVec.getLsbD_not]
  by_cases hi : i < 64
  · by_cases hit : i < t
    · simp [hi, hit]
    · simp [hi, hit]
      omega
  · simp [hi]
    omega

/-- A 32-bit word, promoted to 64 bits, equals the mask exactly when its set bits are those
below `t`. -/
lemma setWidth_eq_lowMask_iff (x : BitVec 32) {t : ℕ} (ht : t < 32) :
    x.setWidth 64 = lowMask t ↔ ∀ i < 32, x.getLsbD i = decide (i < t) := by
  constructor
  · intro h i hi
    have hbit := congrArg (fun y => BitVec.getLsbD y i) h
    simp only [BitVec.getLsbD_setWidth, getLsbD_lowMask (show t < 64 by omega)] at hbit
    rw [← hbit, decide_eq_true (by omega : i < 64), Bool.true_and]
  · intro h
    apply BitVec.eq_of_getLsbD_eq
    intro i hi
    rw [getLsbD_lowMask (by omega), BitVec.getLsbD_setWidth, decide_eq_true hi, Bool.true_and]
    by_cases hi' : i < 32
    · exact h i hi'
    · rw [BitVec.getLsbD_of_ge x i (by omega), decide_eq_false (by omega)]

lemma testWordsLoop_iff (map : Bitmap w) (n i : ℕ) :
    (testWordsLoop map n i).1 = true ↔ ∀ j, 32 * i ≤ j → j < 32 * (i + n) → bit map j = true := by
  induction n generalizing i with
  | zero => simpa [testWordsLoop] using fun j h1 h2 => by omega
  | succ n ih =>
    have hword : ~~~(map.get i 0) = 0 ↔ ∀ j, 32 * i ≤ j → j < 32 * (i + 1) → bit map j = true := by
      constructor
      · intro h j h1 h2
        have hone : map.get i 0 = ~~~0#32 := by
          rw [← BitVec.not_not (b := map.get i 0)]
          exact congrArg _ h
        rw [bit, show j / 32 = i by omega, hone, BitVec.getLsbD_not,
          decide_eq_true (Nat.mod_lt _ (by decide)), BitVec.getLsbD_zero]
        rfl
      · intro h
        apply BitVec.eq_of_getLsbD_eq
        intro j hj
        have := h (32 * i + j) (by omega) (by omega)
        rw [bit, show (32 * i + j) / 32 = i by omega, show (32 * i + j) % 32 = j by omega] at this
        rw [BitVec.getLsbD_not, this]
        simp
    rw [testWordsLoop]
    by_cases hz : ~~~(map.get i 0) = 0
    · rw [if_neg (by simpa using hz), ih]
      constructor
      · intro h j h1 h2
        by_cases hj : j < 32 * (i + 1)
        · exact hword.1 hz j h1 hj
        · exact h j (by omega) (by omega)
      · intro h j h1 h2
        exact h j (by omega) (by omega)
    · rw [if_pos hz]
      constructor
      · intro h
        exact absurd h (by simp)
      · intro h
        exact absurd (hword.2 fun j h1 h2 => h j h1 (by omega)) hz

/-- The completion test holds exactly when the set bits of the words that hold positions below
`n` are the positions below `n`. -/
lemma testAllBitsSet_iff (map : Bitmap w) (n : UInt8) :
    testAllBitsSet map n = true ↔
      (∀ i < n.toNat, bit map i = true) ∧
        (n.toNat % 32 ≠ 0 →
          ∀ i, n.toNat ≤ i → i < 32 * (n.toNat / 32 + 1) → bit map i = false) := by
  have hwords := testWordsLoop_iff map (n.toNat / 32) 0
  rw [testAllBitsSet, testAllBitsSetRun]
  by_cases hall : (testWordsLoop map (n.toNat / 32) 0).1 = true
  · have hlow := hwords.1 hall
    simp only [hall, Bool.not_true, Bool.false_eq_true, if_false]
    by_cases ht : n.toNat % 32 = 0
    · rw [if_neg (by simpa using ht)]
      simp only [true_iff]
      exact ⟨fun i hi => hlow i (by omega) (by omega), fun h => absurd ht h⟩
    · rw [if_pos ht]
      simp only [beq_iff_eq]
      rw [setWidth_eq_lowMask_iff _ (by omega)]
      have hbit : ∀ i < 32,
          (map.get (n.toNat / 32) 0).getLsbD i = bit map (32 * (n.toNat / 32) + i) := by
        intro i hi
        rw [bit, show (32 * (n.toNat / 32) + i) / 32 = n.toNat / 32 by omega,
          show (32 * (n.toNat / 32) + i) % 32 = i by omega]
      constructor
      · intro h
        constructor
        · intro i hi
          by_cases hin : i < 32 * (n.toNat / 32)
          · exact hlow i (by omega) (by omega)
          · have := h (i % 32) (by omega)
            rw [hbit _ (by omega), decide_eq_true (by omega),
              show 32 * (n.toNat / 32) + i % 32 = i by omega] at this
            exact this
        · intro _ i h1 h2
          have := h (i % 32) (by omega)
          rw [hbit _ (by omega), decide_eq_false (by omega),
            show 32 * (n.toNat / 32) + i % 32 = i by omega] at this
          exact this
      · rintro ⟨hset, hclear⟩ i hi
        rw [hbit i hi]
        by_cases hit : i < n.toNat % 32
        · rw [decide_eq_true hit]
          exact hset _ (by omega)
        · rw [decide_eq_false hit]
          exact hclear ht _ (by omega) (by omega)
  · simp only [hall, Bool.not_false, if_true, Bool.false_eq_true, false_iff]
    rintro ⟨hset, -⟩
    exact hall (hwords.2 fun j _ h2 => hset j (by omega))

/-- Every word the completion test reads holds a position below its bound. -/
lemma testAllBitsSetRun_words (map : Bitmap w) (n : UInt8) :
    ∀ x ∈ (testAllBitsSetRun map n).2, 32 * x < n.toNat := by
  have hloop : ∀ (m i : ℕ), ∀ x ∈ (testWordsLoop map m i).2, x < i + m := by
    intro m
    induction m with
    | zero => simp [testWordsLoop]
    | succ m ih =>
      intro i x hx
      rw [testWordsLoop] at hx
      split_ifs at hx
      · have : x = i := by simpa using hx
        omega
      · rcases List.mem_cons.1 hx with rfl | hx
        · omega
        · have := ih (i + 1) x hx
          omega
  intro x hx
  have hfull : x ∈ (testWordsLoop map (n.toNat / 32) 0).2 → 32 * x < n.toNat := by
    intro h
    have := hloop _ _ x h
    omega
  simp only [testAllBitsSetRun] at hx
  split_ifs at hx with h1 h2
  · exact hfull hx
  · rcases List.mem_append.1 hx with hx | hx
    · exact hfull hx
    · have : x = n.toNat / 32 := by simpa using hx
      omega
  · exact hfull hx

/-! ## Sets of bits -/

/-- The bitmap after these calls of `set_bit` on a cleared one. -/
def setBits (w : ℕ) (ks : List UInt8) : Bitmap w := ks.foldl setBit (Buffer.fill w 0#32)

/-- The indices of these calls. -/
def indices (ks : List UInt8) : Set ℕ := {i | ∃ k ∈ ks, k.toNat = i}

/-- The two functions compute what they are for, on a bitmap of the set `s`: whether all positions
below `n` are in `s`, and the least position of `[k, n)` that is not. -/
structure ScansSet (map : Bitmap w) (s : Set ℕ) (k n : UInt8) : Prop where
  all : testAllBitsSet map n = true ↔ ∀ i < n.toNat, i ∈ s
  first : (findFirstZero map k n = -1 ∧ ∀ i, k.toNat ≤ i → i < n.toNat → i ∈ s) ∨
    ∃ i : ℕ, findFirstZero map k n = i ∧ IsLeast {i | k.toNat ≤ i ∧ i < n.toNat ∧ i ∉ s} i

/-- The positions below `n` end with a word, or one of them is missing, or no position from `n` to
the end of its word is there. -/
def Undisturbed (s : Set ℕ) (n : UInt8) : Prop :=
  n.toNat % 32 = 0 ∨ (∃ i < n.toNat, i ∉ s) ∨
    ∀ i, n.toNat ≤ i → i < 32 * (n.toNat / 32 + 1) → i ∉ s

lemma bit_foldl_setBit {ks : List UInt8} (hks : ∀ k ∈ ks, k.toNat < 32 * w) (map : Bitmap w)
    (i : ℕ) : bit (ks.foldl setBit map) i = true ↔ i ∈ indices ks ∨ bit map i = true := by
  induction ks generalizing map with
  | nil => simp [indices]
  | cons k ks ih =>
    have hk := hks k List.mem_cons_self
    have hset : bit (setBit map k) i = true ↔ k.toNat = i ∨ bit map i = true := by
      rw [bit_setBit, Bool.or_eq_true, decide_eq_true_eq]
      exact or_congr_left ⟨fun h => h.1.symm, fun h => ⟨h.symm, h ▸ hk⟩⟩
    rw [List.foldl_cons, ih fun k' hk' => hks k' (List.mem_cons_of_mem _ hk'), hset]
    have hcons : i ∈ indices (k :: ks) ↔ k.toNat = i ∨ i ∈ indices ks := List.exists_mem_cons_iff ..
    rw [hcons, or_left_comm, or_assoc]

/-- The bits that are set are those of the calls. -/
lemma bit_setBits {ks : List UInt8} (hks : ∀ k ∈ ks, k.toNat < 32 * w) (i : ℕ) :
    bit (setBits w ks) i = true ↔ i ∈ indices ks := by
  rw [setBits, bit_foldl_setBit hks, bit_clear]
  simp

/-- The scan for a clear bit, on the bitmap of a set. -/
lemma findFirstZero_isLeast {map : Bitmap w} {s : Set ℕ} (hmap : ∀ i, bit map i = true ↔ i ∈ s)
    (k n : UInt8) : (findFirstZero map k n = -1 ∧ ∀ i, k.toNat ≤ i → i < n.toNat → i ∈ s) ∨
    ∃ i : ℕ, findFirstZero map k n = i ∧
      IsLeast {i | k.toNat ≤ i ∧ i < n.toNat ∧ i ∉ s} i := by
  rcases findFirstZero_spec map k n with ⟨hret, hall⟩ | ⟨i, hret, hki, hin, hclear, hbefore⟩
  · exact .inl ⟨hret, fun i hk hn => (hmap i).1 (hall i hk hn)⟩
  · refine .inr ⟨i, hret, ⟨hki, hin, ?_⟩, fun j hj => ?_⟩
    · rw [← hmap, hclear]
      exact Bool.false_ne_true
    · by_contra hlt
      exact hj.2.2 ((hmap j).1 (hbefore j hj.1 (Nat.lt_of_not_le hlt)))

/-- **The bitmap as a set.** After any calls of `set_bit` on a cleared bitmap, the scan for a clear
bit is right, and the test for completion is right if and only if the set is undisturbed. -/
theorem setBits_scans_iff {ks : List UInt8} (hks : ∀ k ∈ ks, k.toNat < 32 * w) (k n : UInt8) :
    ScansSet (setBits w ks) (indices ks) k n ↔ Undisturbed (indices ks) n := by
  have hmap := bit_setBits hks
  have hall : testAllBitsSet (setBits w ks) n = true ↔ (∀ i < n.toNat, i ∈ indices ks) ∧
      (n.toNat % 32 ≠ 0 → ∀ i, n.toNat ≤ i → i < 32 * (n.toNat / 32 + 1) → i ∉ indices ks) := by
    simp only [testAllBitsSet_iff, hmap, ← Bool.not_eq_true]
  constructor
  · intro h
    by_cases hword : n.toNat % 32 = 0
    · exact .inl hword
    · by_cases hmissing : ∃ i < n.toNat, i ∉ indices ks
      · exact .inr (.inl hmissing)
      · push Not at hmissing
        exact .inr (.inr ((hall.1 (h.all.2 hmissing)).2 hword))
  · intro h
    refine ⟨hall.trans ⟨And.left, fun hset => ⟨hset, fun hword => ?_⟩⟩,
      findFirstZero_isLeast hmap k n⟩
    rcases h with hmod | ⟨i, hi, hmissing⟩ | hclear
    · exact absurd hmod hword
    · exact absurd (hset i hi) hmissing
    · exact hclear

/-- Two positions, and both are there. -/
theorem setBits_scans_iff_two : ScansSet (setBits 1 [1, 0]) (indices [1, 0]) 0 2 := by
  have hks : ∀ k ∈ ([1, 0] : List UInt8), k.toNat < 32 * 1 := by simp
  refine (setBits_scans_iff hks 0 2).2 (.inr (.inr fun i hi _ hmem => ?_))
  obtain ⟨k, hk, rfl⟩ := hmem
  rw [List.mem_cons, List.mem_singleton] at hk
  rcases hk with rfl | rfl
  · exact absurd hi (by decide)
  · exact absurd hi (by decide)

/-- The bit below 1 is set, and the test for completion fails because bit 1 is set as well. -/
theorem testAllBitsSet_disturbed : (∀ i < (1 : UInt8).toNat, bit (setBits 1 [0, 1]) i = true) ∧
    testAllBitsSet (setBits 1 [0, 1]) 1 = false ∧
    ¬ ScansSet (setBits 1 [0, 1]) (indices [0, 1]) 0 1 := by
  have hfails : testAllBitsSet (setBits 1 [0, 1]) 1 = false := by decide
  have hset : ∀ i < (1 : UInt8).toNat, bit (setBits 1 [0, 1]) i = true := by decide
  have hks : ∀ k ∈ ([0, 1] : List UInt8), k.toNat < 32 * 1 := by simp
  refine ⟨hset, hfails, fun h => ?_⟩
  have hall := h.all.2 fun i hi => (bit_setBits hks i).1 (hset i hi)
  rw [hfails] at hall
  cases hall

end Ipcf
