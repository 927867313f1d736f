import HierKvGateway.Cluster.Messages
import HierKvGateway.Core.Error

/-!
# Cluster.Frames — messages on a TCP connection

The wire format of the TCP transport (`tcp_transport.rs`): a header of four bytes, most
significant first, that gives the length of the payload, and the payload, a message as JSON.
The writer refuses a payload of more than `maxFrameSize` bytes, and the reader a header that
says so, or that says zero, before it sets memory aside.

A connection may break off at any byte, in either direction.
-/

namespace HierKvGateway

/-! ## The connection -/

/-- A TCP connection. -/
structure TcpStream where
  /-- The bytes still to be read. -/
  incoming : List UInt8
  /-- The error of a read beyond them. -/
  readError : String
  /-- The bytes written. -/
  outgoing : List UInt8
  /-- How many more bytes can be written, if it will break off. -/
  room : Option Nat
  /-- The error of a write beyond them. -/
  writeError : String
  /-- The error of a flush, if it fails. -/
  flushError : Option String
deriving DecidableEq, Repr

namespace TcpStream

/-- Fill a buffer of `n` bytes (`read_exact`); if there are too few, they are lost. -/
def readExact (n : Nat) (s : TcpStream) : Except String (List UInt8) × TcpStream :=
  if n ≤ s.incoming.length then
    (.ok (s.incoming.take n), { s with incoming := s.incoming.drop n })
  else (.error s.readError, { s with incoming := [] })

/-- Write all of some bytes (`write_all`); if the connection breaks off, the first of them have
been written. -/
def writeAll (bytes : List UInt8) (s : TcpStream) : Except String Unit × TcpStream :=
  match s.room with
  | none => (.ok (), { s with outgoing := s.outgoing ++ bytes })
  | some room =>
    if bytes.length ≤ room then
      (.ok (), { s with outgoing := s.outgoing ++ bytes, room := some (room - bytes.length) })
    else
      -- it breaks off within these bytes
      (.error s.writeError, { s with outgoing := s.outgoing ++ bytes.take room, room := some 0 })

/-- `flush`. -/
def flush (s : TcpStream) : Except String Unit :=
  match s.flushError with
  | none => .ok ()
  | some e => .error e

/-- The connection takes `n` more bytes. -/
structure Takes (s : TcpStream) (n : Nat) : Prop where
  room : ∀ room, s.room = some room → n ≤ room
  flush : s.flushError = none

variable {s : TcpStream} {n : Nat} {bytes : List UInt8}

/-- The two outcomes of a read. -/
theorem readExact_cases (n : Nat) (s : TcpStream) :
    (∃ read rest, read.length = n ∧ s.incoming = read ++ rest ∧
      s.readExact n = (.ok read, { s with incoming := rest })) ∨
    s.readExact n = (.error s.readError, { s with incoming := [] }) := by
  by_cases hn : n ≤ s.incoming.length
  · refine Or.inl ⟨s.incoming.take n, s.incoming.drop n, ?_, ?_, if_pos hn⟩
    · rw [List.length_take]
      omega
    · rw [List.take_append_drop]
  · exact Or.inr (if_neg hn)

/-- What comes next is read, and what follows it is left. -/
theorem readExact_append {rest : List UInt8} (hs : s.incoming = bytes ++ rest)
    (hn : bytes.length = n) :
    s.readExact n = (.ok bytes, { s with incoming := rest }) := by
  have hle : n ≤ s.incoming.length := by
    rw [hs, List.length_append]
    omega
  unfold readExact
  rw [if_pos hle, hs, List.take_left' hn, List.drop_left' hn]

/-- What a write that succeeds has written. -/
theorem writeAll_ok {s' : TcpStream} (h : s.writeAll bytes = (.ok (), s')) :
    s'.outgoing = s.outgoing ++ bytes := by
  unfold writeAll at h
  split at h
  · rw [← (Prod.mk.inj h).2]
  · split at h
    · rw [← (Prod.mk.inj h).2]
    · exact absurd (Prod.mk.inj h).1 (by simp)

/-- A connection that takes the bytes takes the next ones too. -/
theorem Takes.writeAll (h : s.Takes (bytes.length + n)) :
    ∃ s', s.writeAll bytes = (.ok (), s') ∧ s'.Takes n := by
  unfold TcpStream.writeAll
  cases hroom : s.room with
  | none =>
    refine ⟨_, rfl, ?_, h.flush⟩
    intro room hr
    exact absurd hr.symm (Option.some_ne_none room)
  | some room =>
    have hle := h.room room hroom
    dsimp only
    rw [if_pos (by omega)]
    refine ⟨_, rfl, ?_, h.flush⟩
    intro left hleft
    have heq := Option.some.inj hleft
    omega

end TcpStream

/-! ## The header -/

/-- `u32::to_be_bytes`. -/
def toBeBytes (n : BitVec 32) : List UInt8 :=
  [UInt8.ofNat (n.toNat / 16777216 % 256), UInt8.ofNat (n.toNat / 65536 % 256),
    UInt8.ofNat (n.toNat / 256 % 256), UInt8.ofNat (n.toNat % 256)]

/-- `u32::from_be_bytes`. -/
def fromBeBytes (bytes : List UInt8) : BitVec 32 :=
  BitVec.ofNat 32 (bytes.foldl (fun n b => n * 256 + b.toNat) 0)

theorem length_toBeBytes (n : BitVec 32) : (toBeBytes n).length = 4 := rfl

theorem fromBeBytes_toBeBytes (n : BitVec 32) : fromBeBytes (toBeBytes n) = n := by
  have hlt := n.isLt
  have hbyte (m : Nat) : (UInt8.ofNat (m % 256)).toNat = m % 256 := by
    rw [UInt8.toNat_ofNat']
    exact Nat.mod_mod m 256
  apply BitVec.eq_of_toNat_eq
  unfold fromBeBytes toBeBytes
  simp only [List.foldl_cons, List.foldl_nil, hbyte, BitVec.toNat_ofNat]
  -- the number is put together from its remainders by 256
  omega

/-! ## Frames -/

/-- Maximum allowed frame size (4 MiB). -/
def maxFrameSize : Nat := 4194304

/-- The error of a payload that is too large. -/
def frameTooLarge (len : Nat) : HierKvGatewayError :=
  .internal ("TcpClusterTransport: frame too large (" ++ toString len ++ " > " ++
    toString maxFrameSize ++ ")")

/-- The error of a header that is refused. -/
def invalidFrameLength (len : Nat) : HierKvGatewayError :=
  .internal ("TcpClusterTransport: invalid frame length " ++ toString len ++ " (max " ++
    toString maxFrameSize ++ ")")

/-- Write a length-prefixed JSON frame. `toVec` is `serde_json::to_vec`. -/
def writeFrame (toVec : GossipMessage → Except String (List UInt8)) (msg : GossipMessage)
    (s : TcpStream) : Except HierKvGatewayError Unit × TcpStream :=
  match toVec msg with
  | .error e => (.error (.internal ("TcpClusterTransport: serialize failed: " ++ e)), s)
  | .ok payload =>
    -- the cast comes before the check, and may truncate
    let len := BitVec.ofNat 32 payload.length
    if payload.length > maxFrameSize then (.error (frameTooLarge payload.length), s)
    else
      match s.writeAll (toBeBytes len) with
      | (.error e, s) => (.error (.internal ("TcpClusterTransport: write length failed: " ++ e)), s)
      | (.ok (), s) =>
        match s.writeAll payload with
        | (.error e, s) =>
          (.error (.internal ("TcpClusterTransport: write payload failed: " ++ e)), s)
        | (.ok (), s) =>
          match s.flush with
          | .error e => (.error (.internal ("TcpClusterTransport: flush failed: " ++ e)), s)
          | .ok () => (.ok (), s)

/-- A payload read as a message. `fromSlice` is `serde_json::from_slice`. -/
def deserialize (fromSlice : List UInt8 → Except String GossipMessage) (payload : List UInt8) :
    Except HierKvGatewayError GossipMessage :=
  match fromSlice payload with
  | .error e => .error (.internal ("TcpClusterTransport: deserialize failed: " ++ e))
  | .ok msg => .ok msg

/-- What `read_frame` does. -/
structure FrameRead where
  result : Except HierKvGatewayError GossipMessage
  stream : TcpStream
  /-- The size of the buffer for the payload; zero if none is set aside. -/
  allocated : Nat

/-- Read a length-prefixed JSON frame and deserialize it. -/
def readFrame (fromSlice : List UInt8 → Except String GossipMessage) (s : TcpStream) : FrameRead :=
  match s.readExact 4 with
  | (.error e, s) => ⟨.error (.internal ("TcpClusterTransport: read length failed: " ++ e)), s, 0⟩
  | (.ok header, s) =>
    let len := (fromBeBytes header).toNat
    -- a length that is refused costs no memory
    if len = 0 ∨ len > maxFrameSize then ⟨.error (invalidFrameLength len), s, 0⟩
    else
      match s.readExact len with
      | (.error e, s) =>
        ⟨.error (.internal ("TcpClusterTransport: read payload failed: " ++ e)), s, len⟩
      | (.ok payload, s) => ⟨deserialize fromSlice payload, s, len⟩

/-- The bytes of a frame. -/
def frame (payload : List UInt8) : List UInt8 :=
  toBeBytes (BitVec.ofNat 32 payload.length) ++ payload

section Frames

variable {toVec : GossipMessage → Except String (List UInt8)}
  {fromSlice : List UInt8 → Except String GossipMessage} {msg : GossipMessage}
  {payload : List UInt8} {s : TcpStream}

/-- A payload within the limit is written as its frame, or the connection has broken off. -/
theorem writeFrame_ok {s' : TcpStream} (hp : toVec msg = .ok payload)
    (h : writeFrame toVec msg s = (.ok (), s')) :
    s'.outgoing = s.outgoing ++ frame payload := by
  unfold writeFrame at h
  rw [hp] at h
  dsimp only at h
  split at h
  · exact absurd (Prod.mk.inj h).1 (by simp)
  split at h
  · exact absurd (Prod.mk.inj h).1 (by simp)
  rename_i s₁ hheader
  split at h
  · exact absurd (Prod.mk.inj h).1 (by simp)
  rename_i s₂ hpayload
  split at h
  · exact absurd (Prod.mk.inj h).1 (by simp)
  rw [← (Prod.mk.inj h).2, TcpStream.writeAll_ok hpayload, TcpStream.writeAll_ok hheader,
    List.append_assoc, frame]

/-- A connection that takes the bytes of the frame does not make the write fail. -/
theorem writeFrame_takes (hp : toVec msg = .ok payload) (hlen : payload.length ≤ maxFrameSize)
    (hs : s.Takes (4 + payload.length)) : (writeFrame toVec msg s).1 = .ok () := by
  obtain ⟨s₁, hheader, hs₁⟩ : ∃ s₁, s.writeAll (toBeBytes (BitVec.ofNat 32 payload.length)) =
      (.ok (), s₁) ∧ s₁.Takes (payload.length + 0) := TcpStream.Takes.writeAll hs
  -- after the header there is still room for the payload
  obtain ⟨s₂, hpayload, hs₂⟩ := hs₁.writeAll
  have hflush : s₂.flush = .ok () := by
    unfold TcpStream.flush
    rw [hs₂.flush]
  unfold writeFrame
  rw [hp]
  dsimp only
  rw [if_neg (by omega), hheader]
  dsimp only
  rw [hpayload]
  dsimp only
  rw [hflush]

/-- A payload beyond the limit is refused, however large: the check is not on the cast length. -/
theorem writeFrame_refuses (hp : toVec msg = .ok payload) (hlen : maxFrameSize < payload.length) :
    writeFrame toVec msg s = (.error (frameTooLarge payload.length), s) := by
  unfold writeFrame
  rw [hp]
  exact if_pos hlen

/-- A frame is read as its payload, and what follows it is left. -/
theorem readFrame_frame {rest : List UInt8} (hpos : 1 ≤ payload.length)
    (hlen : payload.length ≤ maxFrameSize) (hs : s.incoming = frame payload ++ rest) :
    readFrame fromSlice s =
      ⟨deserialize fromSlice payload, { s with incoming := rest }, payload.length⟩ := by
  have hheader : s.readExact 4 = (.ok (toBeBytes (BitVec.ofNat 32 payload.length)),
      { s with incoming := payload ++ rest }) := by
    refine TcpStream.readExact_append ?_ (length_toBeBytes _)
    rw [hs, frame, List.append_assoc]
  have hlength : (fromBeBytes (toBeBytes (BitVec.ofNat 32 payload.length))).toNat =
      payload.length := by
    -- the limit is below `2 ^ 32`, so the cast has lost nothing
    have hmax : maxFrameSize = 4194304 := rfl
    rw [fromBeBytes_toBeBytes, BitVec.toNat_ofNat]
    omega
  have hpayload : TcpStream.readExact payload.length { s with incoming := payload ++ rest } =
      (.ok payload, { s with incoming := rest }) := TcpStream.readExact_append rfl rfl
  unfold readFrame
  rw [hheader]
  dsimp only
  rw [hlength, if_neg (by omega), hpayload]

/-- What `read_frame` has read if it does not fail: a header, and as many bytes as it says. -/
structure FrameRead.Exact (s : TcpStream) (r : FrameRead) (header payload : List UInt8) : Prop where
  length_header : header.length = 4
  length_payload : payload.length = (fromBeBytes header).toNat
  pos : 1 ≤ payload.length
  le : payload.length ≤ maxFrameSize
  consumed : s.incoming = header ++ payload ++ r.stream.incoming

/-- Whatever bytes arrive, no more memory is set aside than a frame may need, and a read that
does not fail consumes exactly one frame. -/
theorem readFrame_cases (fromSlice : List UInt8 → Except String GossipMessage) (s : TcpStream) :
    (readFrame fromSlice s).allocated ≤ maxFrameSize ∧
    ((∃ e, (readFrame fromSlice s).result = .error e) ∨
      ∃ header payload, (readFrame fromSlice s).Exact s header payload ∧
        (readFrame fromSlice s).result = deserialize fromSlice payload) := by
  unfold readFrame
  rcases s.readExact_cases 4 with ⟨header, body, hheader, hs, hread⟩ | hread
  · rw [hread]
    dsimp only
    split
    · exact ⟨Nat.zero_le _, Or.inl ⟨_, rfl⟩⟩
    rename_i hlen
    have hle : (fromBeBytes header).toNat ≤ maxFrameSize := by omega
    -- the length is accepted, so only now is a buffer set aside for it
    rcases TcpStream.readExact_cases (fromBeBytes header).toNat { s with incoming := body } with
      ⟨payload, rest, hpayload, hbody, hread⟩ | hread
    · rw [hread]
      refine ⟨hle, Or.inr ⟨header, payload, ⟨hheader, hpayload, by omega, by omega, ?_⟩, rfl⟩⟩
      have hbody' : body = payload ++ rest := hbody
      rw [hs, hbody', List.append_assoc]
    · rw [hread]
      exact ⟨hle, Or.inl ⟨_, rfl⟩⟩
  · rw [hread]
    exact ⟨Nat.zero_le _, Or.inl ⟨_, rfl⟩⟩

end Frames

/-- The writer and the reader agree on every frame. A payload of one byte to the limit is written
whole on a connection that takes it, and read back from whatever connection brings these bytes;
a larger one is refused with nothing written; and from any bytes at all the reader fails, or
consumes exactly one frame, and sets no more memory aside than a frame may need. -/
theorem frames_round_trip (toVec : GossipMessage → Except String (List UInt8))
    (fromSlice : List UInt8 → Except String GossipMessage) :
    (∀ msg payload, toVec msg = .ok payload → 1 ≤ payload.length → payload.length ≤ maxFrameSize →
      (∀ sender : TcpStream, sender.Takes (4 + payload.length) →
        (writeFrame toVec msg sender).1 = .ok ()) ∧
      ∀ sender sent : TcpStream, writeFrame toVec msg sender = (.ok (), sent) →
        ∃ written, sent.outgoing = sender.outgoing ++ written ∧
          ∀ (receiver : TcpStream) (rest : List UInt8), receiver.incoming = written ++ rest →
            readFrame fromSlice receiver =
              ⟨deserialize fromSlice payload, { receiver with incoming := rest },
                payload.length⟩ ∧
            (fromSlice payload = .ok msg → (readFrame fromSlice receiver).result = .ok msg)) ∧
    (∀ msg payload (sender : TcpStream), toVec msg = .ok payload →
      maxFrameSize < payload.length →
      writeFrame toVec msg sender = (.error (frameTooLarge payload.length), sender)) ∧
    ∀ receiver : TcpStream, (readFrame fromSlice receiver).allocated ≤ maxFrameSize ∧
      ((∃ e, (readFrame fromSlice receiver).result = .error e) ∨
        ∃ header payload, (readFrame fromSlice receiver).Exact receiver header payload ∧
          (readFrame fromSlice receiver).result = deserialize fromSlice payload) := by
  refine ⟨fun msg payload hp hpos hlen => ⟨fun sender => writeFrame_takes hp hlen, ?_⟩, ?_,
    readFrame_cases fromSlice⟩
  · intro sender sent hsent
    refine ⟨frame payload, writeFrame_ok hp hsent, fun receiver rest hin => ?_⟩
    have hread := @readFrame_frame fromSlice payload receiver rest hpos hlen hin
    refine ⟨hread, fun hback => ?_⟩
    rw [hread]
    show deserialize fromSlice payload = .ok msg
    rw [deserialize, hback]
  · intro msg payload sender hp hlen
    exact writeFrame_refuses hp hlen

/-- A frame of two bytes, followed by a seven. -/
theorem frames_round_trip_meet :
    (readFrame (fun _ => .ok (.meet ⟨"a"⟩ ⟨"eu"⟩ "h:1"))
      ⟨[0, 0, 0, 2, 123, 125, 7], "early eof", [], none, "", none⟩).result =
        .ok (.meet ⟨"a"⟩ ⟨"eu"⟩ "h:1") := by
  obtain ⟨hround, -, -⟩ := frames_round_trip (fun _ => .ok [123, 125])
    (fun _ => .ok (.meet ⟨"a"⟩ ⟨"eu"⟩ "h:1"))
  obtain ⟨-, hsent⟩ := hround (.meet ⟨"a"⟩ ⟨"eu"⟩ "h:1") [123, 125] rfl (by decide) (by decide)
  obtain ⟨written, hwritten, hread⟩ := hsent ⟨[], "", [], none, "", none⟩ _ rfl
  have hbytes : [0, 0, 0, 2, 123, 125] = written := hwritten
  refine (hread _ [7] ?_).2 rfl
  rw [← hbytes]
  rfl

end HierKvGateway
