import SyncEngine.Network.Protocol

/-!
# What goes over the wire comes back

The layout of a packet is `frame`, and the two ends are compared with it: `encode_eq` says what an
encoder writes, `decode_eq` what a decoder makes of a string cut into the fields of a header, and
`decode_eq_some_iff` puts them together, so that the accepted strings are exactly those that
begin with a frame.

A batch is a list of frames with their lengths before them (`chunks`).  The writing loop lays
them out behind what it has written (`writeEach_alloc`), the reading loop takes them off again
(`decodeFrom_chunks`), both by induction on the list of packets.
-/

namespace SyncEngine

open Js

namespace BinaryProtocol

/-- The sequence numbers go up by one and wrap. -/
@[simp] lemma nextSequence_sequenceId (q : BinaryProtocol) :
    q.nextSequence.sequenceId = (q.sequenceId + 1) % 65536 := land_mask _

lemma computeChecksum_lt (data : Buffer) : computeChecksum data < 256 := by
  have hstep : ∀ (data : Buffer) (sum : ℕ), sum < 256 →
      data.foldl (fun sum x => (sum + x.toNat) &&& 0xFF) sum < 256 := by
    intro data
    induction data with
    | nil => exact fun _ h => h
    | cons x data ih =>
      intro sum _
      apply ih
      have hmask : (sum + x.toNat) &&& 0xFF = (sum + x.toNat) % 256 :=
        Nat.and_two_pow_sub_one_eq_mod _ 8
      show (sum + x.toNat) &&& 0xFF < 256
      omega
  exact hstep data 0 (by omega)

/-- The bytes of a packet. -/
def frame (type : PacketType) (id : ℕ) (payload : Buffer) : Buffer :=
  Buffer.bigEndian 4 magic ++ (Buffer.bigEndian 1 version ++ (Buffer.bigEndian 1 type.toNat ++
    (Buffer.bigEndian 2 id ++ (Buffer.bigEndian 4 payload.length ++
      (Buffer.bigEndian 1 (computeChecksum payload) ++ payload)))))

@[simp] lemma length_frame (type : PacketType) (id : ℕ) (payload : Buffer) :
    (frame type id payload).length = headerSize + payload.length := by
  simp only [frame, List.length_append, Buffer.length_bigEndian, headerSize]
  omega

/-! ## The encoder -/

/-- The fields before the sequence number. -/
private lemma encode_opened (type : PacketType) (n : ℕ) :
    (do
      let packet ← Buffer.writeUInt 4 magic 0 (Buffer.alloc (headerSize + n))
      let packet ← Buffer.writeUInt 1 version 4 packet
      Buffer.writeUInt 1 type.toNat 5 packet : Except JsError Buffer) =
      .ok (Buffer.bigEndian 4 magic ++ Buffer.bigEndian 1 version ++
        Buffer.bigEndian 1 type.toNat ++ Buffer.alloc (7 + n)) := by
  have hmagic : Buffer.writeUInt 4 magic 0 (Buffer.alloc (headerSize + n)) =
      .ok (Buffer.bigEndian 4 magic ++ Buffer.alloc (9 + n)) :=
    @Buffer.writeUInt_alloc _ _ _ _ _ [] (by decide) rfl (by simp only [headerSize]; omega)
  rw [hmagic, Buffer.ok_bind, Buffer.writeUInt_alloc (m := 8 + n) (by decide) (by simp) (by omega),
    Buffer.ok_bind]
  exact Buffer.writeUInt_alloc (UInt8.toNat_lt _) (by simp) (by omega)

/-- An encoder writes the frame with its next sequence number. -/
lemma encode_eq (q : BinaryProtocol) (type : PacketType) {payload : Buffer}
    (h : payload.length < 2 ^ 32) :
    q.encode type payload =
      (.ok (frame type q.nextSequence.sequenceId payload), q.nextSequence) := by
  have hid : q.nextSequence.sequenceId < 256 ^ 2 := q.nextSequence.bounded
  have hlength : payload.length < 256 ^ 4 := h
  have hsum : computeChecksum payload < 256 ^ 1 := computeChecksum_lt payload
  simp only [encode, encode_opened]
  rw [Buffer.writeUInt_alloc (m := 5 + payload.length) hid (by simp) (by omega), Buffer.ok_bind,
    Buffer.writeUInt_alloc (m := 1 + payload.length) hlength (by simp) (by omega), Buffer.ok_bind,
    Buffer.writeUInt_alloc (m := payload.length) hsum (by simp) (by omega), Buffer.ok_bind,
    Buffer.copy_alloc (m := 0) (by simp) (by omega)]
  simp [frame, Buffer.alloc, pure, Except.pure]

/-- A payload too long for its length field is refused, and the sequence number is spent. -/
lemma encode_of_le (q : BinaryProtocol) (type : PacketType) {payload : Buffer}
    (h : 2 ^ 32 ≤ payload.length) :
    q.encode type payload = (.error .rangeError, q.nextSequence) := by
  have hid : q.nextSequence.sequenceId < 256 ^ 2 := q.nextSequence.bounded
  simp only [encode, encode_opened]
  rw [Buffer.writeUInt_alloc (m := 5 + payload.length) hid (by simp) (by omega), Buffer.ok_bind,
    Buffer.writeUInt_of_le 8 _ (show 256 ^ 4 ≤ payload.length from h)]
  rfl

@[simp] lemma encode_snd (q : BinaryProtocol) (type : PacketType) (payload : Buffer) :
    (q.encode type payload).2 = q.nextSequence := by
  by_cases h : payload.length < 2 ^ 32
  · rw [encode_eq q type h]
  · rw [encode_of_le q type (by omega)]

/-! ## The decoder -/

lemma decode_of_lt {now : Timestamp} {data : Buffer} (h : data.length < headerSize) :
    decode now data = .ok none :=
  if_pos h

/-- What the decoder makes of a string cut into the fields of a header and the rest. -/
lemma decode_eq (now : Timestamp) {m v t i l c : Buffer} (rest : Buffer) (hm : m.length = 4)
    (hv : v.length = 1) (ht : t.length = 1) (hi : i.length = 2) (hl : l.length = 4)
    (hc : c.length = 1) :
    decode now (m ++ (v ++ (t ++ (i ++ (l ++ (c ++ rest)))))) = .ok
      (if Buffer.number m ≠ magic ∨ Buffer.number v ≠ version ∨
          rest.length < Buffer.number l ∨
          Buffer.number c ≠ computeChecksum (rest.take (Buffer.number l)) then none
        else some ⟨UInt8.ofNat (Buffer.number t), Buffer.number i, now,
          rest.take (Buffer.number l)⟩) := by
  have hmagic := Buffer.readUInt_append [] (v ++ (t ++ (i ++ (l ++ (c ++ rest)))))
    (show _ = 0 from rfl) hm
  have hversion := Buffer.readUInt_append m (t ++ (i ++ (l ++ (c ++ rest)))) hm hv
  have htype := Buffer.readUInt_append (m ++ v) (i ++ (l ++ (c ++ rest)))
    (show _ = 5 by simp [hm, hv]) ht
  have hid := Buffer.readUInt_append (m ++ v ++ t) (l ++ (c ++ rest))
    (show _ = 6 by simp [hm, hv, ht]) hi
  have hlength := Buffer.readUInt_append (m ++ v ++ t ++ i) (c ++ rest)
    (show _ = 8 by simp [hm, hv, ht, hi]) hl
  have hsum := Buffer.readUInt_append (m ++ v ++ t ++ i ++ l) rest
    (show _ = 12 by simp [hm, hv, ht, hi, hl]) hc
  have hpayload : Buffer.subarray 13 (13 + Buffer.number l)
      (m ++ (v ++ (t ++ (i ++ (l ++ (c ++ rest)))))) = rest.take (Buffer.number l) := by
    have hdrop : (m ++ v ++ t ++ i ++ l ++ c ++ rest).drop 13 = rest :=
      List.drop_left' (by simp [hm, hv, ht, hi, hl, hc])
    simp only [List.append_assoc] at hdrop
    rw [Buffer.subarray, hdrop, Nat.add_sub_cancel_left]
  have hsize : (m ++ (v ++ (t ++ (i ++ (l ++ (c ++ rest)))))).length = 13 + rest.length := by
    simp only [List.length_append]
    omega
  simp only [List.append_assoc, List.nil_append] at hmagic hversion htype hid hlength hsum
  rw [decode, if_neg (by simp only [headerSize, hsize]; omega), hmagic, Buffer.ok_bind]
  by_cases h₁ : Buffer.number m = magic
  · rw [if_neg (by simp [h₁]), hversion, Buffer.ok_bind]
    by_cases h₂ : Buffer.number v = version
    · rw [if_neg (by simp [h₂]), htype, Buffer.ok_bind, hid, Buffer.ok_bind, hlength,
        Buffer.ok_bind, hsum, Buffer.ok_bind, hsize, headerSize, hpayload]
      by_cases h₃ : rest.length < Buffer.number l
      · rw [if_pos (by omega)]
        simp [h₃, pure, Except.pure]
      · rw [if_neg (by omega)]
        by_cases h₄ : Buffer.number c = computeChecksum (rest.take (Buffer.number l)) <;>
          simp [h₁, h₂, h₃, h₄, pure, Except.pure]
    · simp [h₂, pure, Except.pure]
  · simp [h₁, pure, Except.pure]

/-- A string long enough for a header is cut into its fields. -/
lemma exists_header {data : Buffer} (h : headerSize ≤ data.length) :
    ∃ m v t i l c rest, m.length = 4 ∧ v.length = 1 ∧ t.length = 1 ∧ i.length = 2 ∧
      l.length = 4 ∧ c.length = 1 ∧ data = m ++ (v ++ (t ++ (i ++ (l ++ (c ++ rest))))) := by
  rw [headerSize] at h
  obtain ⟨m, data, hm, rfl⟩ := Buffer.exists_field (show 4 ≤ data.length by omega)
  obtain ⟨v, data, hv, rfl⟩ := Buffer.exists_field (show 1 ≤ data.length by simp at h; omega)
  obtain ⟨t, data, ht, rfl⟩ := Buffer.exists_field (show 1 ≤ data.length by simp at h; omega)
  obtain ⟨i, data, hi, rfl⟩ := Buffer.exists_field (show 2 ≤ data.length by simp at h; omega)
  obtain ⟨l, data, hl, rfl⟩ := Buffer.exists_field (show 4 ≤ data.length by simp at h; omega)
  obtain ⟨c, rest, hc, rfl⟩ := Buffer.exists_field (show 1 ≤ data.length by simp at h; omega)
  exact ⟨m, v, t, i, l, c, rest, hm, hv, ht, hi, hl, hc, rfl⟩

/-- A frame is decoded, whatever comes after it. -/
lemma decode_frame (now : Timestamp) (type : PacketType) {id : ℕ} {payload : Buffer}
    (trailing : Buffer) (hid : id < 65536) (h : payload.length < 2 ^ 32) :
    decode now (frame type id payload ++ trailing) = .ok (some ⟨type, id, now, payload⟩) := by
  have hlength : Buffer.number (Buffer.bigEndian 4 payload.length) = payload.length :=
    Buffer.number_bigEndian h
  have hsum : Buffer.number (Buffer.bigEndian 1 (computeChecksum payload)) =
      computeChecksum payload := Buffer.number_bigEndian (computeChecksum_lt payload)
  have htype : Buffer.number (Buffer.bigEndian 1 type.toNat) = type.toNat :=
    Buffer.number_bigEndian (UInt8.toNat_lt _)
  simp only [frame, List.append_assoc]
  rw [decode_eq now (payload ++ trailing) (by simp) (by simp) (by simp) (by simp) (by simp)
    (by simp), hlength, List.take_left, hsum, htype, Buffer.number_bigEndian (w := 2) hid,
    UInt8.ofNat_toNat, if_neg]
  rintro (hmagic | hversion | hshort | hchecksum)
  · exact hmagic (Buffer.number_bigEndian (by decide))
  · exact hversion (Buffer.number_bigEndian (by decide))
  · rw [List.length_append] at hshort
    omega
  · exact hchecksum rfl

/-- The decoder accepts the strings that begin with a frame. -/
lemma decode_eq_some_iff (now : Timestamp) (data : Buffer) (p : Packet) :
    decode now data = .ok (some p) ↔ p.id < 65536 ∧ p.payload.length < 2 ^ 32 ∧
      p.timestamp = now ∧ ∃ trailing, data = frame p.type p.id p.payload ++ trailing := by
  constructor
  · intro h
    rcases Nat.lt_or_ge data.length headerSize with hshort | hlong
    · rw [decode_of_lt hshort] at h
      simp at h
    obtain ⟨m, v, t, i, l, c, rest, hm, hv, ht, hi, hl, hc, rfl⟩ := exists_header hlong
    rw [decode_eq now rest hm hv ht hi hl hc] at h
    split at h
    · simp at h
    next hfields =>
      push Not at hfields
      obtain ⟨hmagic, hversion, hfits, hsum⟩ := hfields
      obtain rfl := Option.some.inj (Except.ok.inj h)
      have hpayload : (rest.take (Buffer.number l)).length = Buffer.number l := by
        rw [List.length_take]
        omega
      have hid : Buffer.number i < 256 ^ 2 := hi ▸ Buffer.number_lt i
      have hlength : Buffer.number l < 256 ^ 4 := hl ▸ Buffer.number_lt l
      have htype : Buffer.number t < 256 ^ 1 := ht ▸ Buffer.number_lt t
      refine ⟨hid, by rw [hpayload]; exact hlength, rfl, rest.drop (Buffer.number l), ?_⟩
      have htypeRead : (UInt8.ofNat (Buffer.number t)).toNat = Buffer.number t := by
        rw [UInt8.toNat_ofNat']
        exact Nat.mod_eq_of_lt htype
      simp only [frame, hpayload, htypeRead]
      rw [← hmagic, ← hversion, ← hsum, Buffer.bigEndian_number hm, Buffer.bigEndian_number hv,
        Buffer.bigEndian_number ht, Buffer.bigEndian_number hi, Buffer.bigEndian_number hl,
        Buffer.bigEndian_number hc]
      simp only [List.append_assoc, List.take_append_drop]
  · rintro ⟨hid, hlength, rfl, trailing, rfl⟩
    exact decode_frame _ _ trailing hid hlength

/-- The decoder throws on no string. -/
lemma exists_decode (now : Timestamp) (data : Buffer) : ∃ r, decode now data = .ok r := by
  rcases Nat.lt_or_ge data.length headerSize with hshort | hlong
  · exact ⟨none, decode_of_lt hshort⟩
  · obtain ⟨m, v, t, i, l, c, rest, hm, hv, ht, hi, hl, hc, rfl⟩ := exists_header hlong
    exact ⟨_, decode_eq now rest hm hv ht hi hl hc⟩

/-! ## Runs of the encoder -/

/-- The encoder after a list of calls of `encode`. -/
def after (calls : List (PacketType × Buffer)) : BinaryProtocol :=
  calls.foldl (fun q call => (q.encode call.1 call.2).2) new

/-- The sequence number counts the calls, those that threw included. -/
lemma after_sequenceId (calls : List (PacketType × Buffer)) :
    (after calls).sequenceId = calls.length % 65536 := by
  induction calls using List.reverseRecOn with
  | nil => rfl
  | append_singleton calls call ih =>
    rw [after, List.foldl_append]
    show ((after calls).encode call.1 call.2).2.sequenceId = _
    rw [encode_snd, nextSequence_sequenceId, ih, List.length_append, List.length_singleton]
    omega

lemma after_next (calls : List (PacketType × Buffer)) :
    (after calls).nextSequence.sequenceId = (calls.length + 1) % 65536 := by
  rw [nextSequence_sequenceId, after_sequenceId]
  omega

/-- **Frames are accepted exactly.**  A packet of any type with a payload shorter than `2 ^ 32`
bytes comes back from the wire whatever follows it, numbered by the calls so far; a string is
decoded to a packet exactly when it begins with what an encoder at that sequence number writes for
it; and every other string is decoded to `null`. -/
theorem decode_exact (now : Timestamp) :
    (∀ (calls : List (PacketType × Buffer)) (type : PacketType) (payload trailing : Buffer),
      payload.length < 2 ^ 32 → ∃ packet, ((after calls).encode type payload).1 = .ok packet ∧
        decode now (packet ++ trailing) =
          .ok (some ⟨type, (calls.length + 1) % 65536, now, payload⟩)) ∧
    (∀ (data : Buffer) (p : Packet), decode now data = .ok (some p) ↔ p.timestamp = now ∧
      ∃ (calls : List (PacketType × Buffer)) (packet trailing : Buffer),
        (calls.length + 1) % 65536 = p.id ∧
        ((after calls).encode p.type p.payload).1 = .ok packet ∧ data = packet ++ trailing) ∧
    ∀ data : Buffer, (∀ p, decode now data ≠ .ok (some p)) → decode now data = .ok none := by
  have hround : ∀ (calls : List (PacketType × Buffer)) (type : PacketType)
      (payload trailing : Buffer), payload.length < 2 ^ 32 →
      ∃ packet, ((after calls).encode type payload).1 = .ok packet ∧
        decode now (packet ++ trailing) =
          .ok (some ⟨type, (calls.length + 1) % 65536, now, payload⟩) := by
    intro calls type payload trailing h
    rw [encode_eq _ _ h, after_next]
    exact ⟨_, rfl, decode_frame now type trailing (Nat.mod_lt _ (by decide)) h⟩
  refine ⟨hround, fun data p => ⟨fun h => ?_, ?_⟩, fun data h => ?_⟩
  · obtain ⟨hid, hlength, htime, trailing, rfl⟩ := (decode_eq_some_iff now data p).1 h
    -- as many calls as bring the next sequence number to the one of the packet
    let calls : List (PacketType × Buffer) := List.replicate (p.id + 65535) (0, [])
    have hcalls : (calls.length + 1) % 65536 = p.id := by
      simp only [calls, List.length_replicate]
      omega
    refine ⟨htime, calls, frame p.type p.id p.payload, trailing, hcalls, ?_, rfl⟩
    rw [encode_eq _ _ hlength, after_next, hcalls]
  · rintro ⟨rfl, calls, packet, trailing, hid, hpacket, rfl⟩
    have hlength : p.payload.length < 2 ^ 32 := by
      by_contra hlong
      rw [encode_of_le _ _ (by omega)] at hpacket
      simp at hpacket
    obtain ⟨packet', hpacket', hdecode⟩ := hround calls p.type p.payload trailing hlength
    rw [hpacket] at hpacket'
    obtain rfl := Except.ok.inj hpacket'
    rw [hdecode, hid]
  · obtain ⟨r, hr⟩ := exists_decode now data
    rcases r with - | p
    · exact hr
    · exact absurd hr (h p)

/-- The second packet of an encoder, with a byte behind it. -/
theorem decode_exact_second : [104, 105].length < 2 ^ 32 ∧
    ∃ packet, ((after [(PacketType.heartbeat, [])]).encode PacketType.data [104, 105]).1 =
        .ok packet ∧
      decode 5 (packet ++ [0]) = .ok (some ⟨PacketType.data, 2, 5, [104, 105]⟩) :=
  ⟨by decide, (decode_exact 5).1 [(PacketType.heartbeat, [])] PacketType.data [104, 105] [0]
    (by decide)⟩

/-! ## Batches -/

/-- The frames of a list of packets, numbered from `s + 1`. -/
def frames (s : ℕ) : List (PacketType × Buffer) → List Buffer
  | [] => []
  | packet :: packets =>
    frame packet.1 ((s + 1) % 65536) packet.2 :: frames (s + 1) packets

/-- The payload of a batch: each frame behind its length. -/
def chunks : List Buffer → Buffer
  | [] => []
  | f :: fs => Buffer.bigEndian 4 f.length ++ (f ++ chunks fs)

/-- The encoded size of a list of packets in a batch. -/
def batchLength (packets : List (PacketType × Buffer)) : ℕ :=
  (packets.map fun packet => headerSize + packet.2.length + 4).sum

@[simp] lemma batchLength_cons (packet : PacketType × Buffer)
    (packets : List (PacketType × Buffer)) :
    batchLength (packet :: packets) = headerSize + packet.2.length + 4 + batchLength packets := by
  simp [batchLength]

lemma length_chunks (s : ℕ) (packets : List (PacketType × Buffer)) :
    (chunks (frames s packets)).length = batchLength packets := by
  induction packets generalizing s with
  | nil => rfl
  | cons packet packets ih =>
    simp only [frames, chunks, List.length_append, Buffer.length_bigEndian, length_frame, ih,
      batchLength_cons]
    omega

/-- The frames that the encoder makes, one after the other. -/
lemma encodeEach_eq (packets : List (PacketType × Buffer)) (q : BinaryProtocol)
    (h : batchLength packets < 2 ^ 32) (s : ℕ) (hs : q.sequenceId = s % 65536) :
    ∃ r : BinaryProtocol, q.encodeEach packets = (.ok (frames s packets), r) ∧
      r.sequenceId = (s + packets.length) % 65536 := by
  induction packets generalizing q s with
  | nil => exact ⟨q, rfl, hs⟩
  | cons packet packets ih =>
    rw [batchLength_cons] at h
    have hid : q.nextSequence.sequenceId = (s + 1) % 65536 := by
      rw [nextSequence_sequenceId, hs]
      omega
    obtain ⟨r, hr, hcount⟩ := ih q.nextSequence (by omega) (s + 1) hid
    refine ⟨r, ?_, ?_⟩
    · simp only [encodeEach, encode_eq q packet.1 (show packet.2.length < 2 ^ 32 by omega), hr, hid,
        frames]
    · rw [hcount, List.length_cons, Nat.add_assoc, Nat.add_comm 1]

/-- The writing loop lays out the chunks behind what is written. -/
lemma writeEach_alloc (packets : List (PacketType × Buffer)) (s : ℕ) (written : Buffer)
    (h : batchLength packets < 2 ^ 32) :
    writeEach (written ++ Buffer.alloc (batchLength packets)) written.length (frames s packets) =
      .ok (written ++ chunks (frames s packets)) := by
  induction packets generalizing s written with
  | nil => rfl
  | cons packet packets ih =>
    rw [batchLength_cons] at h ⊢
    set f := frame packet.1 ((s + 1) % 65536) packet.2 with hf
    have hlength : f.length = headerSize + packet.2.length := length_frame _ _ _
    have hfits : f.length < 256 ^ 4 := by omega
    rw [frames, writeEach, Buffer.writeUInt_alloc (m := f.length + batchLength packets) hfits rfl
      (by omega), Buffer.ok_bind, Buffer.copy_alloc (m := batchLength packets) (by simp) rfl]
    have hstands : written.length + 4 + f.length =
        (written ++ Buffer.bigEndian 4 f.length ++ f).length := by
      simp only [List.length_append, Buffer.length_bigEndian]
    rw [hstands, ih (s + 1) _ (by omega), chunks, ← hf]
    simp only [List.append_assoc]

/-- What `encodeBatch` returns: the frame of the chunks, with the next sequence number. -/
lemma encodeBatch_eq (q : BinaryProtocol) (packets : List (PacketType × Buffer))
    (h : batchLength packets < 2 ^ 32) :
    (q.encodeBatch packets).1 = .ok (frame PacketType.batch
      ((q.sequenceId + packets.length + 1) % 65536) (chunks (frames q.sequenceId packets))) := by
  obtain ⟨r, hr, hcount⟩ := encodeEach_eq packets q h q.sequenceId
    (Nat.mod_eq_of_lt q.bounded).symm
  have hsum : ∀ (packets : List (PacketType × Buffer)) (s n : ℕ),
      (frames s packets).foldl (fun sum buf => sum + buf.length + 4) n =
        n + batchLength packets := by
    intro packets
    induction packets with
    | nil => exact fun _ _ => rfl
    | cons packet packets ih =>
      intro s n
      rw [frames, List.foldl_cons, ih, length_frame, batchLength_cons]
      omega
  have hwrite := writeEach_alloc packets q.sequenceId [] h
  have hid : r.nextSequence.sequenceId = (q.sequenceId + packets.length + 1) % 65536 := by
    rw [nextSequence_sequenceId, hcount]
    omega
  have hlength : (chunks (frames q.sequenceId packets)).length < 2 ^ 32 := by
    rwa [length_chunks]
  simp only [List.nil_append, List.length_nil] at hwrite
  simp only [encodeBatch, hr, hsum, Nat.zero_add, hwrite, encode_eq r _ hlength, hid]

/-- One round of the reading loop: the chunk that stands at the offset is decoded. -/
lemma decodeFrom_chunk (clock : ℕ → Timestamp) (before : Buffer) {c : Buffer} (rest : Buffer)
    (h : c.length < 2 ^ 32) :
    decodeFrom clock (before ++ (Buffer.bigEndian 4 c.length ++ (c ++ rest))) before.length = do
      let packet ← decode (clock before.length) c
      let packets ← decodeFrom clock (before ++ (Buffer.bigEndian 4 c.length ++ (c ++ rest)))
        (before.length + 4 + c.length)
      return packet.toList ++ packets := by
  have hread := Buffer.readUInt_append before (c ++ rest) rfl (Buffer.length_bigEndian 4 c.length)
  rw [Buffer.number_bigEndian (show c.length < 256 ^ 4 from h)] at hread
  have hsub := Buffer.subarray_append (before ++ Buffer.bigEndian 4 c.length) rest
    (show _ = before.length + 4 by simp) (show _ + c.length = before.length + 4 + c.length from rfl)
  have hroom : (before ++ (Buffer.bigEndian 4 c.length ++ (c ++ rest))).length =
      before.length + 4 + c.length + rest.length := by
    simp only [List.length_append, Buffer.length_bigEndian]
    omega
  simp only [List.append_assoc] at hsub
  rw [decodeFrom, dif_pos (by omega), if_neg (by omega), hread, Buffer.ok_bind,
    if_neg (by omega), hsub]

/-- A frame that stands at the offset comes back. -/
lemma decodeFrom_frame (clock : ℕ → Timestamp) (before rest : Buffer) (type : PacketType) {id : ℕ}
    {payload : Buffer} (hid : id < 65536) (h : headerSize + payload.length < 2 ^ 32) :
    decodeFrom clock (before ++ (Buffer.bigEndian 4 (frame type id payload).length ++
        (frame type id payload ++ rest))) before.length = do
      let packets ← decodeFrom clock
        (before ++ Buffer.bigEndian 4 (frame type id payload).length ++ frame type id payload ++
          rest)
        (before ++ Buffer.bigEndian 4 (frame type id payload).length ++
          frame type id payload).length
      return ⟨type, id, clock before.length, payload⟩ :: packets := by
  have hlength : (frame type id payload).length = headerSize + payload.length :=
    length_frame _ _ _
  set f := frame type id payload with hf
  have hdecode := decode_frame (clock before.length) type [] hid
    (show payload.length < 2 ^ 32 by omega)
  rw [List.append_nil, ← hf] at hdecode
  have hstands : (before ++ Buffer.bigEndian 4 f.length ++ f).length =
      before.length + 4 + f.length := by
    simp only [List.length_append, Buffer.length_bigEndian]
  rw [decodeFrom_chunk clock before rest (show f.length < 2 ^ 32 by omega), hdecode,
    Buffer.ok_bind, hstands]
  simp only [List.append_assoc]
  rfl

/-- The reading loop takes the chunks off again. -/
lemma decodeFrom_chunks (clock : ℕ → Timestamp) (packets : List (PacketType × Buffer)) (s : ℕ)
    (before : Buffer) (h : batchLength packets < 2 ^ 32) :
    ∃ decoded, decodeFrom clock (before ++ chunks (frames s packets)) before.length =
        .ok decoded ∧
      decoded.map (fun p => (p.type, p.payload)) = packets ∧
      decoded.map (fun p => p.id) =
        (List.range packets.length).map fun i => (s + 1 + i) % 65536 := by
  induction packets generalizing s before with
  | nil =>
    refine ⟨[], ?_, rfl, rfl⟩
    rw [decodeFrom, dif_neg (by simp [frames, chunks])]
  | cons packet packets ih =>
    rw [batchLength_cons] at h
    obtain ⟨decoded, hdecoded, hpackets, hids⟩ := ih (s + 1) (before ++ Buffer.bigEndian 4
      (frame packet.1 ((s + 1) % 65536) packet.2).length ++
        frame packet.1 ((s + 1) % 65536) packet.2) (by omega)
    refine ⟨⟨packet.1, (s + 1) % 65536, clock before.length, packet.2⟩ :: decoded, ?_, ?_, ?_⟩
    · rw [frames, chunks, decodeFrom_frame clock before _ packet.1 (Nat.mod_lt _ (by decide))
        (by omega), hdecoded, Buffer.ok_bind]
      rfl
    · rw [List.map_cons, hpackets]
    · rw [List.map_cons, hids, List.length_cons, List.range_succ_eq_map, List.map_cons,
        List.map_map]
      congr 1
      apply List.map_congr_left
      intro i _
      show (s + 1 + 1 + i) % 65536 = (s + 1 + (i + 1)) % 65536
      rw [Nat.add_assoc (s + 1), Nat.add_comm 1 i]

/-- **Batches come back.**  A list of packets whose chunks are shorter than `2 ^ 32` bytes,
encoded as a batch by an encoder in any state and decoded, is that list again, numbered on from
the state of the encoder; the batch itself has the number after them. -/
theorem decodeBatch_encodeBatch (q : BinaryProtocol) (packets : List (PacketType × Buffer))
    (h : batchLength packets < 2 ^ 32) (now : Timestamp) (clock : ℕ → Timestamp) :
    ∃ data payload decoded, (q.encodeBatch packets).1 = .ok data ∧
      decode now data = .ok (some ⟨PacketType.batch,
        (q.sequenceId + packets.length + 1) % 65536, now, payload⟩) ∧
      decodeBatch clock payload = .ok decoded ∧
      decoded.map (fun p => (p.type, p.payload)) = packets ∧
      decoded.map (fun p => p.id) =
        (List.range packets.length).map fun i => (q.sequenceId + 1 + i) % 65536 := by
  obtain ⟨decoded, hdecoded, hpackets, hids⟩ :=
    decodeFrom_chunks clock packets q.sequenceId [] h
  have hlength : (chunks (frames q.sequenceId packets)).length < 2 ^ 32 := by
    rwa [length_chunks]
  have houter := decode_frame now PacketType.batch []
    (Nat.mod_lt (q.sequenceId + packets.length + 1) (by decide)) hlength
  rw [List.append_nil] at houter
  exact ⟨_, _, decoded, encodeBatch_eq q packets h, houter, hdecoded, hpackets, hids⟩

/-- An encoder about to wrap. -/
def lastButOne : BinaryProtocol := ⟨65534, by decide⟩

/-- A batch in a batch, where the sequence number wraps. -/
theorem decodeBatch_encodeBatch_wrap :
    batchLength [(PacketType.data, [1, 2]), (PacketType.batch, [])] < 2 ^ 32 ∧
    ∃ data payload decoded,
      (lastButOne.encodeBatch [(PacketType.data, [1, 2]), (PacketType.batch, [])]).1 =
        .ok data ∧
      decode 5 data = .ok (some ⟨PacketType.batch, 1, 5, payload⟩) ∧
      decodeBatch (fun offset => offset) payload = .ok decoded ∧
      decoded.map (fun p => (p.type, p.payload)) =
        [(PacketType.data, [1, 2]), (PacketType.batch, [])] ∧
      decoded.map (fun p => p.id) = [65535, 0] :=
  ⟨by decide, decodeBatch_encodeBatch lastButOne
    [(PacketType.data, [1, 2]), (PacketType.batch, [])] (by decide) 5 fun offset => offset⟩

end BinaryProtocol

end SyncEngine
