import Ipcf.Split.Frame

/-!
# Slices

A message travels as slices of 36 bytes: a separator, a sequence number, 32 bytes of data padded
with zeros, and a CRC-16 over the slice with the checksum field preset to all ones.  Slices are
kept as raw bytes and read through accessors, as `split.c` casts them out of a frame.

`fillSlices_eq` is the closed form of the slicing loop: slice `j` is built from the `j`-th
32-byte chunk of the message, for as many slices as the message needs and a frame holds.
-/

namespace Ipcf

/-! ## Fields of a slice -/

def sliceSeq (s : Bytes) : UInt8 := s.getD 1 0

def sliceData (s : Bytes) : Bytes := (s.drop 2).take sliceDataLen

def sliceCsum (s : Bytes) : UInt16 := ofLe16 (s.getD 34 0) (s.getD 35 0)

/-- The slice with its checksum field set to `0xffff`. -/
def slicePreset (s : Bytes) : Bytes := s.take 34 ++ le16 0xffff

/-- The check `cp_slice_to_rse` makes. -/
def sliceCsumOk (s : Bytes) : Bool := sliceCsum s == csum16 (slicePreset s)

/-! ## Building slices -/

/-- `fill_slice_k`: slice `k` from the bytes `src`, at most 32 of them. -/
def fillSliceK (k : UInt8) (src : Bytes) : Bytes :=
  let s := [sliceSeperator, k] ++ src ++ List.replicate (sliceDataLen - src.length) 0
  s ++ le16 (csum16 (s ++ le16 0xffff))

/-- The loop of `fill_slices` at slice `seq`, with the rest of the message; every iteration moves
`slice` on by 36 bytes towards the end of `dest`, so `size` bounds their number. -/
def fillSlicesLoop (size : ℕ) : (n seq : ℕ) → (msg : Bytes) → List Bytes
  | 0, _, _ => []
  | n + 1, seq, msg =>
    if msg ≠ [] ∧ sliceLen * seq + sliceDataLen ≤ size then
      fillSliceK (UInt8.ofNat seq) (msg.take sliceDataLen) ::
        fillSlicesLoop size n (seq + 1) (msg.drop sliceDataLen)
    else []

/-- `fill_slices`: the slices, whose number is returned, and the number of bytes of the message
they hold, which is stored in `*msglen`. -/
def fillSlices (size : ℕ) (msg : Bytes) : List Bytes × ℕ :=
  let slices := fillSlicesLoop size size 0 msg
  (slices, msg.length - (msg.drop (sliceDataLen * slices.length)).length)

/-! ## The slices of a message -/

/-- The number of slices a message of `len` bytes needs. -/
def sliceCount (len : ℕ) : ℕ := (len + sliceDataLen - 1) / sliceDataLen

/-- The part of the message that slice `j` holds. -/
def chunk (msg : Bytes) (j : ℕ) : Bytes := (msg.drop (sliceDataLen * j)).take sliceDataLen

/-- Slice `j` of a message. -/
def sliceOf (msg : Bytes) (j : ℕ) : Bytes := fillSliceK (UInt8.ofNat j) (chunk msg j)

lemma length_fillSliceK (k : UInt8) {src : Bytes} (h : src.length ≤ sliceDataLen) :
    (fillSliceK k src).length = sliceLen := by
  simp only [fillSliceK, List.length_append, List.length_cons, List.length_nil,
    List.length_replicate, length_le16, sliceDataLen, sliceLen] at *
  omega

lemma length_chunk_le (msg : Bytes) (j : ℕ) : (chunk msg j).length ≤ sliceDataLen := by
  simp only [chunk, List.length_take]
  omega

lemma length_chunk (msg : Bytes) (j : ℕ) :
    (chunk msg j).length = min sliceDataLen (msg.length - sliceDataLen * j) := by
  simp [chunk]

@[simp] lemma length_sliceOf (msg : Bytes) (j : ℕ) : (sliceOf msg j).length = sliceLen :=
  length_fillSliceK _ (length_chunk_le msg j)

lemma sliceSeq_fillSliceK (k : UInt8) (src : Bytes) : sliceSeq (fillSliceK k src) = k := by
  simp [sliceSeq, fillSliceK]

lemma sliceData_fillSliceK (k : UInt8) {src : Bytes} (h : src.length ≤ sliceDataLen) :
    sliceData (fillSliceK k src) = src ++ List.replicate (sliceDataLen - src.length) 0 := by
  have hlen : (src ++ List.replicate (sliceDataLen - src.length) (0 : UInt8)).length =
      sliceDataLen := by
    simp only [List.length_append, List.length_replicate]
    omega
  simp only [sliceData, fillSliceK, List.cons_append, List.nil_append, List.drop_succ_cons,
    List.drop_zero]
  rw [List.take_left' hlen]

/-- A slice as it was built passes the check of `cp_slice_to_rse`. -/
lemma sliceCsumOk_fillSliceK (k : UInt8) {src : Bytes} (h : src.length ≤ sliceDataLen) :
    sliceCsumOk (fillSliceK k src) = true := by
  set s := [sliceSeperator, k] ++ src ++ List.replicate (sliceDataLen - src.length) (0 : UInt8)
    with hs
  have hlen : s.length = 34 := by
    simp only [hs, List.length_append, List.length_cons, List.length_nil, List.length_replicate,
      sliceDataLen] at *
    omega
  have hslice : fillSliceK k src = s ++ le16 (csum16 (s ++ le16 0xffff)) := rfl
  have hpre : slicePreset (fillSliceK k src) = s ++ le16 0xffff := by
    rw [slicePreset, hslice, List.take_left' hlen]
  rw [sliceCsumOk, hpre, sliceCsum, hslice]
  simp [List.getD_eq_getElem?_getD, hlen, le16]

lemma sliceCsumOk_sliceOf (msg : Bytes) (j : ℕ) : sliceCsumOk (sliceOf msg j) = true :=
  sliceCsumOk_fillSliceK _ (length_chunk_le msg j)

/-- A slice is its first 34 bytes and its checksum. -/
lemma take_append_csum {s : Bytes} (h : s.length = sliceLen) :
    s.take 34 ++ [s.getD 34 0, s.getD 35 0] = s := by
  have h34 : 34 < s.length := by
    rw [h]
    decide
  have h35 : 35 < s.length := by
    rw [h]
    decide
  have hend : s.drop 36 = [] := List.drop_eq_nil_of_le h.le
  rw [List.getD_eq_getElem?_getD, List.getD_eq_getElem?_getD, List.getElem?_eq_getElem h34,
    List.getElem?_eq_getElem h35]
  conv_rhs => rw [← List.take_append_drop 34 s, List.drop_eq_getElem_cons h34,
    List.drop_eq_getElem_cons h35, hend]
  rfl

/-- Slices that pass the check and differ at most in their checksum are equal: the checksum is over
the other bytes. -/
lemma slice_eq_of_csumOk {s t : Bytes} (hs : s.length = sliceLen) (ht : t.length = sliceLen)
    (hsok : sliceCsumOk s = true) (htok : sliceCsumOk t = true)
    (hpre : slicePreset s = slicePreset t) : s = t := by
  rw [sliceCsumOk, beq_iff_eq] at hsok htok
  have hcsum : sliceCsum s = sliceCsum t := by rw [hsok, htok, hpre]
  have htake : s.take 34 = t.take 34 := List.append_cancel_right hpre
  obtain ⟨h34, h35⟩ := ofLe16_inj.1 hcsum
  rw [← take_append_csum hs, ← take_append_csum ht, htake, h34, h35]

/-- A slice whose last byte is not the one it was sent with fails the check. -/
lemma sliceCsumOk_spoiled {s : Bytes} (h : s.length = sliceLen) (hs : sliceCsumOk s = true)
    {x : UInt8} (hx : s[35]? ≠ some x) : sliceCsumOk (s.take 35 ++ [x]) = false := by
  have hlen : (s.take 35).length = 35 := by
    rw [List.length_take, h]
    decide
  have hpre : slicePreset s = slicePreset (s.take 35 ++ [x]) := by
    rw [slicePreset, slicePreset, List.take_append_of_le_length (by omega), List.take_take]
    rfl
  have hlen' : (s.take 35 ++ [x]).length = sliceLen := by
    rw [List.length_append, hlen]
    rfl
  by_contra hok
  rw [Bool.not_eq_false] at hok
  apply hx
  rw [slice_eq_of_csumOk h hlen' hs hok hpre, List.getElem?_append_right (by omega), hlen]
  rfl

/-! ## Slices behind one another -/

/-- The `j`-th 36 bytes. -/
def sliceAt (data : Bytes) (j : ℕ) : Bytes := (data.drop (sliceLen * j)).take sliceLen

lemma sliceAt_zero (data : Bytes) : sliceAt data 0 = data.take sliceLen := by
  simp [sliceAt]

lemma sliceAt_succ (data : Bytes) (j : ℕ) :
    sliceAt data (j + 1) = sliceAt (data.drop sliceLen) j := by
  rw [sliceAt, sliceAt, List.drop_drop, Nat.mul_add, Nat.mul_one, Nat.add_comm]

lemma length_flatten_of_length {ss : List Bytes} (h : ∀ s ∈ ss, s.length = sliceLen) :
    ss.flatten.length = sliceLen * ss.length := by
  induction ss with
  | nil => rfl
  | cons s ss ih =>
    rw [List.flatten_cons, List.length_append, h s (by simp), ih fun t ht => h t (by simp [ht]),
      List.length_cons, Nat.mul_succ, Nat.add_comm]

lemma sliceAt_flatten {ss : List Bytes} (h : ∀ s ∈ ss, s.length = sliceLen) {j : ℕ}
    (hj : j < ss.length) : sliceAt ss.flatten j = ss[j] := by
  induction ss generalizing j with
  | nil => simp at hj
  | cons s ss ih =>
    have hs : s.length = sliceLen := h s (by simp)
    cases j with
    | zero => rw [sliceAt_zero, List.flatten_cons, List.take_left' hs, List.getElem_cons_zero]
    | succ j =>
      rw [sliceAt_succ, List.flatten_cons, List.drop_left' hs,
        ih (fun t ht => h t (by simp [ht])) (by simpa using hj), List.getElem_cons_succ]

/-- Cutting a row of slices leaves the slices that are still complete as they were. -/
lemma sliceAt_take (data : Bytes) {k j : ℕ} (h : sliceLen * (j + 1) ≤ k) :
    sliceAt (data.take k) j = sliceAt data j := by
  rw [sliceAt, sliceAt, List.drop_take, List.take_take, Nat.min_eq_left]
  rw [Nat.mul_succ] at h
  omega

/-- A byte behind a cut row of slices belongs to the last slice, and only when it is the last
byte of it. -/
lemma sliceAt_take_concat {data : Bytes} {k : ℕ} (hk : k < data.length) (x : UInt8) {j : ℕ}
    (h : sliceLen * (j + 1) ≤ k + 1) :
    sliceAt (data.take k ++ [x]) j =
      if sliceLen * (j + 1) ≤ k then sliceAt data j else (sliceAt data j).take 35 ++ [x] := by
  have hlen : (data.take k).length = k := by
    rw [List.length_take]
    omega
  split_ifs with hle
  · rw [← sliceAt_take data hle, sliceAt, sliceAt, List.drop_append_of_le_length,
      List.take_append_of_le_length]
    · rw [List.length_drop, hlen]
      rw [Nat.mul_succ] at hle
      omega
    · rw [hlen]
      rw [Nat.mul_succ] at hle
      omega
  · have hlast : k = sliceLen * j + 35 := by
      rw [Nat.mul_succ] at hle h
      simp only [sliceLen] at *
      omega
    rw [sliceAt, sliceAt, List.drop_append_of_le_length (by rw [hlen]; omega), List.drop_take,
      List.take_take, hlast, Nat.add_sub_cancel_left, List.take_of_length_le]
    · rfl
    · simp only [List.length_append, List.length_take, List.length_drop, List.length_cons,
        List.length_nil, sliceLen]
      omega

section

variable {ss : List Bytes} (hlen : ∀ s ∈ ss, s.length = sliceLen) {k j : ℕ}

include hlen

/-- What is still complete of a row of slices that was cut. -/
lemma sliceAt_flatten_take (hk : k ≤ ss.flatten.length) (hj : sliceLen * (j + 1) ≤ k) :
    sliceAt (ss.flatten.take k) j = ss.getD j [] := by
  have hjlt : j < ss.length := by
    rw [length_flatten_of_length hlen] at hk
    simp only [sliceLen] at *
    omega
  rw [sliceAt_take _ hj, sliceAt_flatten hlen hjlt, List.getD_eq_getElem?_getD,
    List.getElem?_eq_getElem hjlt]
  rfl

/-- A wrong byte behind a row of slices that was cut spoils the slice that it completes. -/
lemma sliceCsumOk_take_concat (hok : ∀ s ∈ ss, sliceCsumOk s = true) (hk : k < ss.flatten.length)
    {x : UInt8} (hx : x ≠ ss.flatten[k]) (hj : sliceLen * (j + 1) = k + 1) :
    sliceCsumOk (sliceAt (ss.flatten.take k ++ [x]) j) = false := by
  have hjlt : j < ss.length := by
    rw [length_flatten_of_length hlen] at hk
    simp only [sliceLen] at *
    omega
  have hmem : ss[j] ∈ ss := List.getElem_mem hjlt
  have hidx : sliceLen * j + 35 = k := by
    simp only [sliceLen] at *
    omega
  have hlast : (ss[j])[35]? = some ss.flatten[k] := by
    rw [← sliceAt_flatten hlen hjlt, sliceAt, List.getElem?_take, if_pos (by decide),
      List.getElem?_drop, hidx, List.getElem?_eq_getElem hk]
  rw [sliceAt_take_concat hk x (by omega), if_neg (by omega), sliceAt_flatten hlen hjlt]
  apply sliceCsumOk_spoiled (hlen _ hmem) (hok _ hmem)
  rw [hlast]
  exact fun heq => hx (Option.some.inj heq).symm

end

/-! ## The slicing loop -/

lemma chunk_zero (msg : Bytes) : chunk msg 0 = msg.take sliceDataLen := by
  simp [chunk]

lemma chunk_succ (msg : Bytes) (j : ℕ) : chunk msg (j + 1) = chunk (msg.drop sliceDataLen) j := by
  rw [chunk, chunk, List.drop_drop, Nat.mul_add, Nat.mul_one, Nat.add_comm]

/-- How many slices fit between the start of `dest` and its end, by the loop's own test. -/
def sliceRoom (size : ℕ) : ℕ := (size + sliceLen - sliceDataLen) / sliceLen

lemma lt_sliceRoom_iff (size seq : ℕ) :
    seq < sliceRoom size ↔ sliceLen * seq + sliceDataLen ≤ size := by
  simp only [sliceRoom, sliceLen, sliceDataLen]
  omega

lemma fillSlicesLoop_eq (size n seq : ℕ) (msg : Bytes) (hn : sliceRoom size ≤ seq + n) :
    fillSlicesLoop size n seq msg =
      (List.range (min (sliceCount msg.length) (sliceRoom size - seq))).map
        fun j => fillSliceK (UInt8.ofNat (seq + j)) (chunk msg j) := by
  induction n generalizing seq msg with
  | zero => simp [fillSlicesLoop, show sliceRoom size - seq = 0 by omega]
  | succ n ih =>
    simp only [fillSlicesLoop, ← lt_sliceRoom_iff]
    by_cases hgo : msg ≠ [] ∧ seq < sliceRoom size
    · obtain ⟨hne, hroom⟩ := hgo
      have hpos : 0 < msg.length := List.length_pos_iff.2 hne
      have hcount : min (sliceCount msg.length) (sliceRoom size - seq) =
          min (sliceCount (msg.drop sliceDataLen).length) (sliceRoom size - (seq + 1)) + 1 := by
        simp only [sliceCount, List.length_drop, sliceDataLen]
        omega
      rw [if_pos ⟨hne, hroom⟩, ih _ _ (by omega), hcount, List.range_succ_eq_map, List.map_cons,
        List.map_map, chunk_zero, Nat.add_zero]
      congr 2
      funext j
      simp only [Function.comp, chunk_succ, Nat.succ_eq_add_one]
      congr 2
      omega
    · rw [if_neg hgo]
      have hzero : min (sliceCount msg.length) (sliceRoom size - seq) = 0 := by
        by_cases hne : msg = []
        · simp [hne, sliceCount, sliceDataLen]
        · have : ¬ seq < sliceRoom size := fun h => hgo ⟨hne, h⟩
          omega
      rw [hzero]
      rfl

/-- **The slicer.** `fill_slices` builds the slices of the message in order, as many as it needs
or a frame takes, and reports the bytes they hold. -/
lemma fillSlices_eq (msg : Bytes) :
    fillSlices linkDataMax msg =
      ((List.range (min (sliceCount msg.length) maxSliceNum)).map (sliceOf msg),
        min msg.length (sliceDataLen * maxSliceNum)) := by
  have hroom : sliceRoom linkDataMax = maxSliceNum := by decide
  have hloop : fillSlicesLoop linkDataMax linkDataMax 0 msg =
      (List.range (min (sliceCount msg.length) maxSliceNum)).map (sliceOf msg) := by
    rw [fillSlicesLoop_eq _ _ _ _ (by decide), hroom, Nat.sub_zero]
    simp only [Nat.zero_add]
    rfl
  simp only [fillSlices, hloop, List.length_map, List.length_range, List.length_drop]
  congr 1
  simp only [sliceCount, sliceDataLen, maxSliceNum_eq]
  omega

end Ipcf
