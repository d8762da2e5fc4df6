import SyncEngine.Network.Framing

/-!
# Bytes from anywhere

What the decoders make of bytes that no encoder wrote.

A byte string is read as a batch in one way only: as chunks behind their lengths, and a rest that
is too short for a length or announces more than there is (`IsBatch`, `existsUnique_isBatch`).  The
reading loop goes through these chunks, so a chunk that is no packet shifts nothing behind it
(`decodeBatch_chunks`).

A packet in which one byte is another one is refused, unless the byte is in the type, the sequence
number or the length (`decode_set`).  For a byte of the payload this is a fact about the checksum:
a sum modulo `2 ^ 8` tells any two bytes in one place apart.
-/

namespace SyncEngine

open Js

namespace BinaryProtocol

/-! ## Chunks -/

/-- The rest of a batch: no room for a length, or a length that announces more than remains. -/
def CutOff (tail : Buffer) : Prop :=
  tail.length < 4 ∨ tail.length < 4 + Buffer.number (tail.take 4)

/-- The byte string is these chunks, each behind its length, and the rest. -/
structure IsBatch (b : Buffer) (cs : List Buffer) (tail : Buffer) : Prop where
  fits : ∀ c ∈ cs, c.length < 2 ^ 32
  cutOff : CutOff tail
  eq : b = chunks cs ++ tail

/-- A chunk behind its length is not cut off. -/
lemma not_cutOff_chunk {c : Buffer} (hc : c.length < 2 ^ 32) (rest : Buffer) :
    ¬ CutOff (Buffer.bigEndian 4 c.length ++ (c ++ rest)) := by
  have hlength : (Buffer.bigEndian 4 c.length ++ (c ++ rest)).length =
      4 + c.length + rest.length := by
    simp only [List.length_append, Buffer.length_bigEndian]
    omega
  rintro (hshort | hshort)
  · omega
  · rw [List.take_left' (Buffer.length_bigEndian 4 _), Buffer.number_bigEndian hc,
      hlength] at hshort
    omega

/-- What is not cut off begins with a chunk. -/
lemma exists_chunk {b : Buffer} (h : ¬ CutOff b) :
    ∃ c rest, c.length < 2 ^ 32 ∧ b = Buffer.bigEndian 4 c.length ++ (c ++ rest) := by
  rw [CutOff, not_or, not_lt, not_lt] at h
  obtain ⟨field, rest, hfield, rfl⟩ := Buffer.exists_field h.1
  have hroom := h.2
  rw [List.take_left' hfield, List.length_append, hfield] at hroom
  obtain ⟨c, rest, hc, rfl⟩ := Buffer.exists_field (show Buffer.number field ≤ rest.length by omega)
  refine ⟨c, rest, ?_, ?_⟩
  · have hlt := Buffer.number_lt field
    rw [hfield] at hlt
    rw [hc]
    exact hlt
  · rw [hc, Buffer.bigEndian_number hfield]

lemma exists_isBatch (b : Buffer) : ∃ cs tail, IsBatch b cs tail := by
  induction hn : b.length using Nat.strong_induction_on generalizing b with
  | _ n ih =>
    by_cases h : CutOff b
    · exact ⟨[], b, by simp, h, rfl⟩
    · obtain ⟨c, rest, hc, rfl⟩ := exists_chunk h
      have hless : rest.length < n := by
        rw [← hn]
        simp only [List.length_append, Buffer.length_bigEndian]
        omega
      obtain ⟨cs, tail, hrest⟩ := ih _ hless rest rfl
      refine ⟨c :: cs, tail, ?_, hrest.cutOff, ?_⟩
      · intro c' hc'
        obtain rfl | hc' := List.mem_cons.1 hc'
        · exact hc
        · exact hrest.fits c' hc'
      · rw [hrest.eq, chunks]
        simp only [List.append_assoc]

lemma IsBatch.tail {b c tail : Buffer} {cs : List Buffer}
    (h : IsBatch (Buffer.bigEndian 4 c.length ++ (c ++ b)) (c :: cs) tail) : IsBatch b cs tail where
  fits c hc := h.fits c (List.mem_cons_of_mem _ hc)
  cutOff := h.cutOff
  eq := by
    have heq := h.eq
    rw [chunks, List.append_assoc, List.append_assoc] at heq
    exact List.append_cancel_left (List.append_cancel_left heq)

/-- There is one way to read a byte string as a batch. -/
lemma IsBatch.unique {b tail tail' : Buffer} {cs cs' : List Buffer} (h : IsBatch b cs tail)
    (h' : IsBatch b cs' tail') : cs' = cs ∧ tail' = tail := by
  induction cs generalizing b cs' with
  | nil =>
    obtain rfl : b = tail := h.eq
    cases cs' with
    | nil => exact ⟨rfl, h'.eq.symm⟩
    | cons c cs' =>
      have hcut := h.cutOff
      rw [h'.eq, chunks, List.append_assoc, List.append_assoc] at hcut
      exact absurd hcut (not_cutOff_chunk (h'.fits c List.mem_cons_self) _)
  | cons c cs ih =>
    have hb := h.eq
    rw [chunks, List.append_assoc, List.append_assoc] at hb
    subst hb
    have hc := h.fits c List.mem_cons_self
    cases cs' with
    | nil =>
      have hcut := h'.cutOff
      rw [← show _ = tail' from h'.eq] at hcut
      exact absurd hcut (not_cutOff_chunk hc _)
    | cons c' cs' =>
      have heq := h'.eq
      rw [chunks, List.append_assoc, List.append_assoc] at heq
      obtain ⟨hlength, hrest⟩ := List.append_inj heq (by simp only [Buffer.length_bigEndian])
      have hsize : c.length = c'.length := by
        rw [← Buffer.number_bigEndian (w := 4) hc, hlength,
          Buffer.number_bigEndian (w := 4) (h'.fits c' List.mem_cons_self)]
      obtain ⟨rfl, -⟩ := List.append_inj hrest hsize
      obtain ⟨rfl, rfl⟩ := ih h.tail h'.tail
      exact ⟨rfl, rfl⟩

/-- The chunks with the offsets at which the loop stands before them. -/
def standing (offset : ℕ) : List Buffer → List (ℕ × Buffer)
  | [] => []
  | c :: cs => (offset, c) :: standing (offset + 4 + c.length) cs

/-- The loop stops at what is cut off. -/
lemma decodeFrom_cutOff (clock : ℕ → Timestamp) (before : Buffer) {tail : Buffer}
    (h : CutOff tail) : decodeFrom clock (before ++ tail) before.length = .ok [] := by
  rw [decodeFrom]
  split
  · split
    next => rfl
    next hfield =>
      rw [List.length_append] at hfield
      obtain hshort | hshort := h
      · omega
      obtain ⟨field, rest, hlength, rfl⟩ := Buffer.exists_field (show 4 ≤ tail.length by omega)
      rw [List.take_left' hlength, List.length_append, hlength] at hshort
      rw [Buffer.readUInt_append before rest rfl hlength, Buffer.ok_bind, if_pos]
      · rfl
      · simp only [List.length_append]
        omega
  · rfl

/-- The loop takes the chunks off, decodes each, and leaves out what is no packet. -/
lemma decodeFrom_batch (clock : ℕ → Timestamp) (before : Buffer) {tail : Buffer}
    {cs : List Buffer} (hfits : ∀ c ∈ cs, c.length < 2 ^ 32) (htail : CutOff tail) :
    ∃ results,
      List.Forall₂ (fun chunk result => decode (clock chunk.1) chunk.2 = .ok result)
        (standing before.length cs) results ∧
      decodeFrom clock (before ++ (chunks cs ++ tail)) before.length =
        .ok results.reduceOption := by
  induction cs generalizing before with
  | nil => exact ⟨[], .nil, decodeFrom_cutOff clock before htail⟩
  | cons c cs ih =>
    have hstands : (before ++ Buffer.bigEndian 4 c.length ++ c).length =
        before.length + 4 + c.length := by
      simp only [List.length_append, Buffer.length_bigEndian]
    obtain ⟨results, hresults, hrest⟩ := ih (before ++ Buffer.bigEndian 4 c.length ++ c)
      fun c hc => hfits c (List.mem_cons_of_mem _ hc)
    obtain ⟨result, hresult⟩ := exists_decode (clock before.length) c
    rw [hstands] at hresults hrest
    refine ⟨result :: results, .cons hresult hresults, ?_⟩
    simp only [chunks, List.append_assoc] at hrest ⊢
    rw [decodeFrom_chunk clock before _ (hfits c List.mem_cons_self), hresult, Buffer.ok_bind,
      hrest, Buffer.ok_bind]
    cases result <;> rfl

/-- **Batches of any bytes.**  Every byte string is in one way a list of chunks behind their lengths
with a rest that is cut off, and `decodeBatch` returns, in order, what `decode` makes of the chunks,
without those that it rejects. -/
theorem decodeBatch_chunks (clock : ℕ → Timestamp) (b : Buffer) :
    ∃ cs tail, IsBatch b cs tail ∧
      (∀ cs' tail', IsBatch b cs' tail' → cs' = cs ∧ tail' = tail) ∧
      ∃ results,
        List.Forall₂ (fun chunk result => decode (clock chunk.1) chunk.2 = .ok result)
          (standing 0 cs) results ∧
        decodeBatch clock b = .ok results.reduceOption := by
  obtain ⟨cs, tail, h⟩ := exists_isBatch b
  obtain ⟨results, hresults, hdecoded⟩ := decodeFrom_batch clock [] h.fits h.cutOff
  refine ⟨cs, tail, h, fun cs' tail' h' => h.unique h', results, hresults, ?_⟩
  rw [decodeBatch, h.eq]
  exact hdecoded

/-! ## Single bytes -/

/-- A field with another byte in it holds another number. -/
lemma number_set_ne {field : Buffer} {i : ℕ} (hi : i < field.length) {x : UInt8}
    (hx : field[i]? ≠ some x) : Buffer.number (field.set i x) ≠ Buffer.number field := by
  intro heq
  have hlength : (field.set i x).length = field.length := List.length_set
  have hsame : field.set i x = field := by
    rw [← Buffer.bigEndian_number hlength, heq, Buffer.bigEndian_number rfl]
  rw [← hsame, List.getElem?_set_self hi] at hx
  exact hx rfl

/-- The checksum is the sum of the bytes, modulo `2 ^ 8`. -/
lemma computeChecksum_eq (data : Buffer) :
    computeChecksum data = (data.map UInt8.toNat).sum % 256 := by
  have hmask : ∀ n : ℕ, n &&& 0xFF = n % 256 := fun n => Nat.and_two_pow_sub_one_eq_mod n 8
  induction data using List.reverseRecOn with
  | nil => rfl
  | append_singleton data x ih =>
    have hlast : computeChecksum (data ++ [x]) = (computeChecksum data + x.toNat) % 256 := by
      rw [computeChecksum, List.foldl_append, ← computeChecksum]
      exact hmask _
    rw [hlast, ih, List.map_append, List.sum_append, List.map_singleton, List.sum_singleton,
      Nat.mod_add_mod]

/-- **Any other byte changes the checksum.** -/
lemma computeChecksum_byte_ne (before after : Buffer) {x y : UInt8} (h : x ≠ y) :
    computeChecksum (before ++ x :: after) ≠ computeChecksum (before ++ y :: after) := by
  have hbyte : x.toNat ≠ y.toNat := fun heq => h (UInt8.toNat_inj.1 heq)
  have hx := x.toNat_lt
  have hy := y.toNat_lt
  simp only [computeChecksum_eq, List.map_append, List.map_cons, List.sum_append, List.sum_cons]
  omega

lemma computeChecksum_set_ne {data : Buffer} {i : ℕ} (hi : i < data.length) {x : UInt8}
    (hx : data[i]? ≠ some x) : computeChecksum (data.set i x) ≠ computeChecksum data := by
  have hset : data.set i x = data.take i ++ x :: data.drop (i + 1) :=
    List.set_eq_take_append_cons_drop.trans (if_pos hi)
  have hcut : data.take i ++ data[i] :: data.drop (i + 1) = data := by simp
  have hbyte : x ≠ data[i] := by
    rintro rfl
    exact hx (List.getElem?_eq_getElem hi)
  have hne := computeChecksum_byte_ne (data.take i) (data.drop (i + 1)) hbyte
  rwa [hcut, ← hset] at hne

/-- A byte behind the first `n` of a string. -/
lemma set_behind {before : Buffer} {n i : ℕ} (hn : before.length = n) (hi : n ≤ i) (rest : Buffer)
    (x : UInt8) : (before ++ rest).set i x = before ++ rest.set (i - n) x ∧
      (before ++ rest)[i]? = rest[i - n]? := by
  subst hn
  exact ⟨List.set_append_right _ _ hi, List.getElem?_append_right hi⟩

/-- A byte in front of the rest of a string. -/
lemma set_within {field : Buffer} {i : ℕ} (hi : i < field.length) (rest : Buffer) (x : UInt8) :
    (field ++ rest).set i x = field.set i x ++ rest ∧ (field ++ rest)[i]? = field[i]? :=
  ⟨List.set_append_left _ _ hi, List.getElem?_append_left hi⟩

/-- A packet whose header says something else than its payload. -/
lemma decode_of_mismatch (now : Timestamp) {m v c payload : Buffer} {type : PacketType} {id : ℕ}
    (hm : m.length = 4) (hv : v.length = 1) (hc : c.length = 1) (hfits : payload.length < 2 ^ 32)
    (hne : Buffer.number m ≠ magic ∨ Buffer.number v ≠ version ∨
      Buffer.number c ≠ computeChecksum payload) :
    decode now (m ++ (v ++ (Buffer.bigEndian 1 type.toNat ++ (Buffer.bigEndian 2 id ++
      (Buffer.bigEndian 4 payload.length ++ (c ++ payload)))))) = .ok none := by
  have hlength : Buffer.number (Buffer.bigEndian 4 payload.length) = payload.length :=
    Buffer.number_bigEndian hfits
  rw [decode_eq now payload hm hv (by simp) (by simp) (by simp) hc, hlength, List.take_length,
    if_pos]
  obtain hne | hne | hne := hne
  · exact .inl hne
  · exact .inr (.inl hne)
  · exact .inr (.inr (.inr hne))

/-- **A damaged packet is refused.**  Replace any one byte of the magic number, the version, the
checksum or the payload of an encoded packet by another byte: `decode` returns `null`. -/
theorem decode_set (q : BinaryProtocol) (type : PacketType) (payload : Buffer) {packet : Buffer}
    (h : (q.encode type payload).1 = .ok packet) (now : Timestamp) {i : ℕ}
    (hi : i < packet.length) (hfield : i < 5 ∨ 12 ≤ i) {x : UInt8} (hx : packet[i]? ≠ some x) :
    decode now (packet.set i x) = .ok none := by
  have hfits : payload.length < 2 ^ 32 := by
    by_contra hlong
    rw [encode_of_le q type (by omega)] at h
    cases h
  rw [encode_eq q type hfits] at h
  obtain rfl := Except.ok.inj h
  rw [length_frame, headerSize] at hi
  have hm : (Buffer.bigEndian 4 magic).length = 4 := Buffer.length_bigEndian _ _
  have hv : (Buffer.bigEndian 1 version).length = 1 := Buffer.length_bigEndian _ _
  have hc : (Buffer.bigEndian 1 (computeChecksum payload)).length = 1 := Buffer.length_bigEndian _ _
  have hsum : Buffer.number (Buffer.bigEndian 1 (computeChecksum payload)) =
      computeChecksum payload := Buffer.number_bigEndian (computeChecksum_lt payload)
  -- the fields in front of the checksum
  have hheader : (Buffer.bigEndian 4 magic ++ (Buffer.bigEndian 1 version ++
      (Buffer.bigEndian 1 type.toNat ++ (Buffer.bigEndian 2 q.nextSequence.sequenceId ++
        Buffer.bigEndian 4 payload.length)))).length = 12 := by
    simp only [List.length_append, Buffer.length_bigEndian]
  have hbehind := fun hi : 12 ≤ i => set_behind hheader hi
    (Buffer.bigEndian 1 (computeChecksum payload) ++ payload) x
  simp only [List.append_assoc] at hbehind
  unfold frame at hx ⊢
  obtain hmagic | hversion | hchecksum | hpayload : i < 4 ∨ i = 4 ∨ i = 12 ∨ 13 ≤ i := by omega
  · rw [(set_within (hm.symm ▸ hmagic) _ x).2] at hx
    rw [(set_within (hm.symm ▸ hmagic) _ x).1]
    refine decode_of_mismatch now (by simp) hv hc hfits (.inl ?_)
    exact (number_set_ne (by omega) hx).trans_eq (Buffer.number_bigEndian (by decide))
  · have hzero : i - 4 < (Buffer.bigEndian 1 version).length := by omega
    rw [(set_behind hm hversion.ge _ x).2, (set_within hzero _ x).2] at hx
    rw [(set_behind hm hversion.ge _ x).1, (set_within hzero _ x).1]
    refine decode_of_mismatch now hm (by simp) hc hfits (.inr (.inl ?_))
    exact (number_set_ne hzero hx).trans_eq (Buffer.number_bigEndian (by decide))
  · have hzero : i - 12 < (Buffer.bigEndian 1 (computeChecksum payload)).length := by omega
    rw [(hbehind hchecksum.ge).2, (set_within hzero _ x).2] at hx
    rw [(hbehind hchecksum.ge).1, (set_within hzero _ x).1]
    refine decode_of_mismatch now hm hv (by simp) hfits (.inr (.inr ?_))
    exact (number_set_ne hzero hx).trans_eq hsum
  · have hinside : i - 12 - 1 < payload.length := by omega
    rw [(hbehind (by omega)).2, (set_behind hc (by omega) _ x).2] at hx
    rw [(hbehind (by omega)).1, (set_behind hc (by omega) _ x).1]
    have hlength : payload.length = (payload.set (i - 12 - 1) x).length := List.length_set.symm
    rw [hlength] at hfits ⊢
    refine decode_of_mismatch now hm hv hc hfits (.inr (.inr ?_))
    rw [hsum]
    exact (computeChecksum_set_ne hinside hx).symm

/-- The last byte of a packet with one byte of payload, `1` for `0`. -/
theorem decode_set_last : ∃ packet, (new.encode PacketType.data [0]).1 = .ok packet ∧
    13 < packet.length ∧ packet[13]? ≠ some 1 ∧ decode 5 (packet.set 13 1) = .ok none :=
  ⟨_, rfl, by decide, by decide,
    decode_set new PacketType.data [0] rfl 5 (by decide) (.inr (by decide)) (by decide)⟩

end BinaryProtocol

end SyncEngine
