import Ipcf.Split.Receives

/-!
# Slices in any order

What a receive session holds of a message depends on which of its slices have arrived and on
nothing else: not on their order, not on how often one arrived, not on how they were grouped into
calls of `patch_rse`.  `Collected` says what it holds; every slice keeps it so
(`collected_cpSliceToRse`), and a group of slices is no more than the slices one by one
(`patchRse_flatten`).
-/

namespace Ipcf

/-- The session was opened for `p` over the data `old` and has been given the slices in `S`. -/
structure Collected (p : Packet) (old : Buffer UInt8 linkMtu) (S : Set ℕ) (se : Rse) : Prop where
  receives : Receives p se
  bits : ∀ i, bit se.bitmap i = true ↔ i ∈ S
  arrived : ∀ i < p.payload.length, i / sliceDataLen ∈ S → se.data.cells[i]? = p.payload[i]?
  kept : ∀ i, p.payload.length ≤ i ∨ i / sliceDataLen ∉ S → se.data.cells[i]? = old.cells[i]?

/-- `patch_rse` over a row of slices stores them one by one. -/
lemma patchRse_flatten {slices : List Bytes} (h : ∀ s ∈ slices, s.length = sliceLen) (se : Rse) :
    (patchRse se slices.flatten slices.length).1 =
      slices.foldl (fun se s => (cpSliceToRse se s).1) se := by
  induction slices generalizing se with
  | nil => rfl
  | cons s slices ih =>
    have hs : s.length = sliceLen := h s (by simp)
    rw [List.length_cons, List.flatten_cons, patchRse, List.take_left' hs, List.drop_left' hs,
      ih (fun t ht => h t (by simp [ht])), List.foldl_cons]

section

variable {p : Packet} {old : Buffer UInt8 linkMtu} {S : Set ℕ} {se : Rse}

/-- One more slice, whether it was there before or not. -/
lemma collected_cpSliceToRse (h : Collected p old S se) {k : ℕ} (hk : k < p.slices) :
    Collected p old (insert k S) (cpSliceToRse se (sliceOf p.payload k)).1 := by
  obtain ⟨hreceives, hbits⟩ := h.receives.cpSliceToRse_sliceOf hk
  have hlen := p.length_le
  have hcell : ∀ i, (cpSliceToRse se (sliceOf p.payload k)).1.data.cells[i]? =
      if i / sliceDataLen = k ∧ i < p.payload.length then p.payload[i]?
      else se.data.cells[i]? := by
    intro i
    have hcov : (sliceDataLen * k ≤ i ∧ i < sliceDataLen * k + (chunk p.payload k).length ∧
        i < linkMtu) ↔ i / sliceDataLen = k ∧ i < p.payload.length := by
      rw [maxSliceNum_eq] at hlen
      rw [length_chunk]
      simp only [sliceDataLen, linkMtu] at *
      omega
    rw [h.receives.cpSliceToRse_eq hk]
    simp only
    rw [Buffer.getElem?_write]
    by_cases hin : i / sliceDataLen = k ∧ i < p.payload.length
    · have hge : sliceDataLen * k ≤ i := (hcov.2 hin).1
      have hoff : i - sliceDataLen * k < sliceDataLen := by
        have := hin.1
        simp only [sliceDataLen] at *
        omega
      rw [if_pos (hcov.2 hin), if_pos hin, chunk, List.getElem?_take, if_pos hoff,
        List.getElem?_drop, Nat.add_sub_cancel' hge]
    · rw [if_neg (mt hcov.1 hin), if_neg hin]
  refine ⟨hreceives, fun i => ?_, fun i hi hmem => ?_, fun i hi => ?_⟩
  · rw [hbits, Bool.or_eq_true, decide_eq_true_eq, h.bits, Set.mem_insert_iff]
  · rw [hcell]
    split_ifs with hin
    · rfl
    · exact h.arrived i hi ((Set.mem_insert_iff.1 hmem).resolve_left fun heq => hin ⟨heq, hi⟩)
  · rw [hcell, if_neg, h.kept i (hi.imp_right (mt (Set.mem_insert_of_mem k)))]
    rintro ⟨heq, hlt⟩
    rcases hi with hge | hnot
    · omega
    · exact hnot (heq ▸ Set.mem_insert _ _)

lemma collected_foldl (h : Collected p old S se) {ks : List ℕ} (hks : ∀ k ∈ ks, k < p.slices) :
    Collected p old (S ∪ {k | k ∈ ks})
      ((ks.map (sliceOf p.payload)).foldl (fun se s => (cpSliceToRse se s).1) se) := by
  induction ks generalizing se S with
  | nil => simpa using h
  | cons k ks ih =>
    have hrest := ih (collected_cpSliceToRse h (hks k (by simp))) fun j hj => hks j (by simp [hj])
    have hset : insert k S ∪ {j | j ∈ ks} = S ∪ {j | j ∈ k :: ks} := by
      ext j
      simp only [Set.mem_union, Set.mem_insert_iff, Set.mem_ofPred_eq, List.mem_cons]
      rw [or_assoc, or_left_comm]
    rw [← hset]
    exact hrest

lemma collected_openRse (p : Packet) (smac dmac : UInt8) (se : Rse) :
    Collected p se.data ∅ (openRse (p.hdrs smac dmac).2 se) := by
  obtain ⟨hreceives, hclear⟩ := receives_openRse p smac dmac se
  refine ⟨hreceives, fun i => ?_, fun i _ hmem => absurd hmem (Set.notMem_empty _), fun i _ => rfl⟩
  simp [hclear i]

end

/-- Slice `i` of the packet, as `fill_slices` made it, is among the slices. -/
def Packet.Occurs (p : Packet) (slices : List Bytes) (i : ℕ) : Prop :=
  ∃ s ∈ slices, (fillSlices linkDataMax p.payload).1[i]? = some s

lemma Packet.fillSlices_payload (p : Packet) :
    (fillSlices linkDataMax p.payload).1 = (List.range p.slices).map (sliceOf p.payload) := by
  rw [fillSlices_eq, ← Packet.slices, Nat.min_eq_left p.slices_le]

lemma Packet.getElem?_fillSlices (p : Packet) {i : ℕ} {s : Bytes} :
    (fillSlices linkDataMax p.payload).1[i]? = some s ↔ i < p.slices ∧ s = sliceOf p.payload i := by
  rw [p.fillSlices_payload, List.getElem?_map, Option.map_eq_some_iff]
  constructor
  · rintro ⟨j, hj, rfl⟩
    obtain ⟨hlt, rfl⟩ := List.getElem?_eq_some_iff.1 hj
    rw [List.length_range] at hlt
    exact ⟨hlt, by rw [List.getElem_range]⟩
  · rintro ⟨hlt, rfl⟩
    exact ⟨i, List.getElem?_range hlt, rfl⟩

/-- A slice of the packet shows its number. -/
lemma Packet.sliceSeq_sliceOf (p : Packet) {k : ℕ} (hk : k < p.slices) :
    (sliceSeq (sliceOf p.payload k)).toNat = k := by
  rw [sliceOf, sliceSeq_fillSliceK, Packet.toNat_ofNat hk]

/-- Slices of the packet are given by their numbers. -/
lemma Packet.exists_numbers (p : Packet) {slices : List Bytes}
    (h : ∀ s ∈ slices, s ∈ (fillSlices linkDataMax p.payload).1) :
    ∃ ks : List ℕ, slices = ks.map (sliceOf p.payload) ∧ (∀ k ∈ ks, k < p.slices) ∧
      ∀ i, p.Occurs slices i ↔ i ∈ ks := by
  have hnumber : ∀ s ∈ slices, (sliceSeq s).toNat < p.slices ∧
      sliceOf p.payload (sliceSeq s).toNat = s := by
    intro s hs
    obtain ⟨k, hk⟩ := List.mem_iff_getElem?.1 (h s hs)
    obtain ⟨hlt, rfl⟩ := p.getElem?_fillSlices.1 hk
    rw [p.sliceSeq_sliceOf hlt]
    exact ⟨hlt, rfl⟩
  refine ⟨slices.map fun s => (sliceSeq s).toNat, ?_, ?_, fun i => ?_⟩
  · rw [List.map_map]
    nth_rewrite 1 [← List.map_id slices]
    exact List.map_congr_left fun s hs => (hnumber s hs).2.symm
  · intro k hk
    obtain ⟨s, hs, rfl⟩ := List.mem_map.1 hk
    exact (hnumber s hs).1
  · rw [List.mem_map]
    constructor
    · rintro ⟨s, hs, hi⟩
      obtain ⟨hlt, rfl⟩ := p.getElem?_fillSlices.1 hi
      exact ⟨_, hs, p.sliceSeq_sliceOf hlt⟩
    · rintro ⟨s, hs, rfl⟩
      exact ⟨s, hs, p.getElem?_fillSlices.2 ⟨(hnumber s hs).1, (hnumber s hs).2.symm⟩⟩

/-- **Reassembly.** A session opened by the headers of a packet, over whatever data, is given
slices of the packet in any order and as often as one likes, in calls of `patch_rse` of any sizes.
Afterwards the bits are those of the slices that occurred; the data is the payload there and what
it was everywhere else; and the completion test holds exactly when no slice is missing, and then
the checksum is that of the payload. -/
theorem patchRse_any_order (stack : Stack) (fh : FrmHdr) (smac dmac : UInt8) (p : Packet)
    (old : Rse) (calls : List (List Bytes))
    (hcalls : ∀ call ∈ calls, ∀ s ∈ call, s ∈ (fillSlices linkDataMax p.payload).1) :
    let opened := (procDataRse stack fh (p.hdrs smac dmac).2 [] old).se
    let se := calls.foldl (fun se call => (patchRse se call.flatten call.length).1) opened
    se.nSlices.toNat = (p.payload.length + sliceDataLen - 1) / sliceDataLen ∧
      (∀ i, bit se.bitmap i = true ↔ p.Occurs calls.flatten i) ∧
      (∀ i < p.payload.length, p.Occurs calls.flatten (i / sliceDataLen) →
        se.data.cells[i]? = p.payload[i]?) ∧
      (∀ i < p.payload.length, ¬ p.Occurs calls.flatten (i / sliceDataLen) →
        se.data.cells[i]? = old.data.cells[i]?) ∧
      (∀ i, p.payload.length ≤ i → se.data.cells[i]? = old.data.cells[i]?) ∧
      (testAllBitsSet se.bitmap se.nSlices = true ↔
        ∀ i < se.nSlices.toNat, p.Occurs calls.flatten i) ∧
      (testAllBitsSet se.bitmap se.nSlices = true →
        csum32 (se.data.read 0 p.payload.length) = crc32c p.payload) := by
  intro opened se
  have hdrawn : ∀ s ∈ calls.flatten, s ∈ (fillSlices linkDataMax p.payload).1 := by
    intro s hs
    obtain ⟨call, hcall, hmem⟩ := List.mem_flatten.1 hs
    exact hcalls call hcall s hmem
  obtain ⟨ks, hks, hlt, hoccurs⟩ := p.exists_numbers hdrawn
  have hslice : ∀ s ∈ calls.flatten, s.length = sliceLen := by
    intro s hs
    rw [hks, List.mem_map] at hs
    obtain ⟨k, -, rfl⟩ := hs
    exact length_sliceOf _ _
  -- the calls are no more than their slices, one by one
  have hse : se = calls.flatten.foldl (fun se s => (cpSliceToRse se s).1) opened := by
    rw [List.foldl_flatten]
    apply List.foldl_ext
    intro se' call hcall
    exact patchRse_flatten (fun s hs => hslice s (List.mem_flatten.2 ⟨call, hcall, hs⟩)) se'
  have hopened : opened = openRse (p.hdrs smac dmac).2 old := (procDataRse_hdrs ..).1
  have hall : Collected p old.data {k | k ∈ ks} se := by
    rw [hse, hopened, hks]
    simpa using collected_foldl (collected_openRse p smac dmac old) hlt
  have hfull : testAllBitsSet se.bitmap se.nSlices = true ↔
      ∀ i < se.nSlices.toNat, p.Occurs calls.flatten i := by
    rw [hall.receives.testAllBitsSet_iff, hall.receives.nSlices]
    exact forall₂_congr fun i _ => (hall.bits i).trans (hoccurs i).symm
  refine ⟨hall.receives.nSlices, fun i => (hall.bits i).trans (hoccurs i).symm, ?_, ?_, ?_, hfull,
    ?_⟩
  · intro i hi h
    exact hall.arrived i hi ((hoccurs _).1 h)
  · intro i _ h
    exact hall.kept i (.inr fun hmem => h ((hoccurs _).2 hmem))
  · intro i hi
    exact hall.kept i (.inl hi)
  · intro htest
    have hread := hall.receives.read_of_full (hall.receives.testAllBitsSet_iff.1 htest)
    rw [hall.receives.msglen] at hread
    rw [hread]
    rfl

/-- The three slices of a packet: the last, then the first and the last again, then the second. -/
theorem patchRse_any_order_reversed :
    let p : Packet := ⟨0, List.replicate 70 7, by decide, by decide⟩
    let calls := [[sliceOf p.payload 2], [sliceOf p.payload 0, sliceOf p.payload 2],
      [sliceOf p.payload 1]]
    let se := calls.foldl (fun se call => (patchRse se call.flatten call.length).1)
      (procDataRse default (p.hdrs 1 2).1 (p.hdrs 1 2).2 [] (resetRse 0)).se
    testAllBitsSet se.bitmap se.nSlices = true ∧
      csum32 (se.data.read 0 p.payload.length) = crc32c p.payload := by
  intro p calls se
  have hslices : p.slices = 3 := by decide
  have hnumbers : calls.flatten = [2, 0, 2, 1].map (sliceOf p.payload) := rfl
  have hdrawn : ∀ s ∈ calls.flatten, s ∈ (fillSlices linkDataMax p.payload).1 := by
    intro s hs
    rw [hnumbers, List.mem_map] at hs
    obtain ⟨k, hk, rfl⟩ := hs
    have hlt : ∀ k ∈ [2, 0, 2, 1], k < 3 := by decide
    exact List.mem_of_getElem? (p.getElem?_fillSlices.2 ⟨hslices ▸ hlt k hk, rfl⟩)
  obtain ⟨hn, -, -, -, -, hfull, hcsum⟩ :=
    patchRse_any_order default (p.hdrs 1 2).1 1 2 p (resetRse 0) calls fun call hcall s hs =>
      hdrawn s (List.mem_flatten.2 ⟨call, hcall, hs⟩)
  have hall : testAllBitsSet se.bitmap se.nSlices = true := by
    refine hfull.2 fun i hi => ?_
    have hlt : i < p.slices := Nat.lt_of_lt_of_eq hi hn
    have hdone : ∀ i < 3, i ∈ [2, 0, 2, 1] := by decide
    refine ⟨sliceOf p.payload i, ?_, p.getElem?_fillSlices.2 ⟨hlt, rfl⟩⟩
    rw [hnumbers]
    exact List.mem_map_of_mem (hdone i (hslices ▸ hlt))
  exact ⟨hall, hcsum hall⟩

end Ipcf
