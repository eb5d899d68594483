import HoloCompute.Hyperbus.Protocol

/-!
# Reading frames from a QUIC stream

`QUICStream.ReadMessage` and the control-stream handshake of `QUICBus.handleConnection`
(`internal/hyperbus/quic.go`). A stream's receiving end is the data written and not yet read
(the writer has written all of it and closed the stream), the transport's choice of how much each
`Read` returns, and how the writer's `Close` arrives. `Read` may return any amount from one byte
up to the buffer's length and the data available, as `io.Reader` allows: `splits` lists those
amounts for the next reads, and once it runs out every `Read` fills as much of its buffer as there
is data. The `Close` (the stream's FIN) may come with the last bytes, and then the `Read` that
takes them returns `io.EOF` together with them, as `io.Reader` allows and a QUIC stream does when
the FIN travels in the frame carrying the last data; or it may come on its own, and then only the
next `Read` returns `io.EOF`.

Each reader issues one `Read` per buffer and returns on any error, whatever byte count came with
it. When every `Read` fills its buffer, `ReadMessage` returns the frames written, in order, except
the last when the FIN came with it: that frame is dropped and `ReadMessage` returns `io.EOF`
(`readMessages_frames`). `handleConnection` hands `DecodeMessage` the `ControlHello` payload,
unless the FIN came with the frame's last bytes, which `sendControlHello`'s `Close` right after
its write allows (`handleConnection_hello`). A short `Read` of a header makes `ReadMessage` fail,
and a short `Read` of a body leaves zeros in the body `handleConnection` decodes
(`short_read_breaks_framing`).
-/

namespace HoloCompute.Hyperbus
set_option autoImplicit false
open HoloCompute.Go

/-- The receiving end of a stream: the bytes written and not yet read, the amounts the transport
lets the next `Read` calls return, and whether the FIN comes with the last bytes (the `Read` that
takes them returns `io.EOF` too) rather than after them. -/
structure Stream where
  pending : List (BitVec 8)
  splits : List Nat
  finWithLast : Bool

/-- What one `Read(buf)` returns: the byte count `n`, the buffer after it, and whether its error is
`io.EOF` (the only error of a stream the writer closed). -/
structure ReadResult where
  n : Nat
  buf : List (BitVec 8)
  eof : Bool
  deriving DecidableEq, Repr

/-- The errors `ReadMessage` returns. -/
inductive ReadError where
  /-- `io.EOF` from `Read`, with or without bytes. -/
  | eof
  /-- `"incomplete header read: expected 6 bytes, got %d"` -/
  | incompleteHeader (got : Nat)
  /-- `"failed to decode header: %w"` -/
  | failedToDecodeHeader (e : HeaderError)
  /-- `"incomplete message body read: expected %d bytes, got %d"` -/
  | incompleteBody (expected got : Nat)
  deriving DecidableEq, Repr

namespace Stream

/-- `Read(buf)` into a buffer of `m` zero bytes made by `make`. An empty buffer reads nothing;
with no data left, `io.EOF`; otherwise at least one byte, at most `m` and the data available, and
at most the next entry of `splits`, with `io.EOF` when these are the last bytes and the FIN came
with them. -/
def read (s : Stream) (m : Nat) : ReadResult × Stream :=
  if m = 0 then (⟨0, [], false⟩, s)
  else if s.pending.isEmpty then (⟨0, List.replicate m 0, true⟩, s)
  else
    let n := min (max (s.splits.headD m) 1) (min m s.pending.length)
    (⟨n, s.pending.take n ++ List.replicate (m - n) 0, s.finWithLast && n == s.pending.length⟩,
      ⟨s.pending.drop n, s.splits.tail, s.finWithLast⟩)

/-- `ReadMessage`: one `Read` for the 6-byte header, one for the body. -/
def readMessage (s : Stream) : Except ReadError (List (BitVec 8)) × Stream :=
  match s.read 6 with
  | (header, s) =>
    if header.eof then (.error .eof, s)
    else if header.n ≠ 6 then (.error (.incompleteHeader header.n), s)
    else
      match decodeHeader header.buf with
      | .error e => (.error (.failedToDecodeHeader e), s)
      | .ok h =>
        match s.read h.size with
        | (body, s) =>
          if body.eof then (.error .eof, s)
          else if body.n % 4294967296 ≠ h.size then (.error (.incompleteBody h.size body.n), s)
          else (.ok (header.buf ++ body.buf), s)

/-- What successive `ReadMessage` calls return. -/
def readMessages : Stream → Nat → List (Except ReadError (List (BitVec 8)))
  | _, 0 => []
  | s, k + 1 => s.readMessage.1 :: readMessages s.readMessage.2 k

end Stream

/-- `ControlStream`, the first `StreamType`, as the byte `OpenStream` writes. -/
def controlStream : Nat := 0

/-- Where `handleConnection` gives up on the control stream (it logs and returns). -/
inductive HandshakeError where
  | failedToReadStreamType
  | expectedControlStream
  | failedToReadMessageHeader
  | failedToDecodeMessageHeader
  | expectedControlHello
  | failedToReadMessageBody
  deriving DecidableEq, Repr

/-- `QUICBus.handleConnection` on the control stream it accepted: the bytes it passes to
`DecodeMessage` as the `ControlHello`. The counts its `Read` calls return are ignored. -/
def handleConnection (s : Stream) : Except HandshakeError (List (BitVec 8)) :=
  match s.read 1 with
  | (streamType, s) =>
    if streamType.eof then .error .failedToReadStreamType
    else if (streamType.buf.headD 0).toNat ≠ controlStream then .error .expectedControlStream
    else
      match s.read 6 with
      | (header, s) =>
        if header.eof then .error .failedToReadMessageHeader
        else
          match decodeHeader header.buf with
          | .error _ => .error .failedToDecodeMessageHeader
          | .ok h =>
            if h.type ≠ msgControlHello then .error .expectedControlHello
            else
              let body := (s.read h.size).1
              if body.eof then .error .failedToReadMessageBody else .ok body.buf

namespace Stream

/-- A `Read` the transport lets fill its buffer. It returns `io.EOF` with the bytes when they are
the last ones and the FIN came with them; an empty buffer reads nothing. -/
theorem read_full (bs rest : List (BitVec 8)) (fin : Bool) :
    (⟨bs ++ rest, [], fin⟩ : Stream).read bs.length =
      (⟨bs.length, bs, !bs.isEmpty && fin && rest.isEmpty⟩, ⟨rest, [], fin⟩) := by
  cases bs with
  | nil => rfl
  | cons b bs =>
    have hn : min (max (([] : List Nat).headD (bs.length + 1)) 1)
        (min (bs.length + 1) (b :: bs ++ rest).length) = bs.length + 1 := by simp
    simp only [read, List.length_cons, Nat.add_one_ne_zero, if_false, List.cons_append,
      List.isEmpty_cons, Bool.false_eq_true, hn, Nat.sub_self, List.replicate_zero, List.append_nil]
    cases rest <;> simp

/-- A `Read` the transport cuts to `k` bytes, short of the data left: no `io.EOF` comes with it. -/
theorem read_split {bs : List (BitVec 8)} {m k : Nat} (splits : List Nat) (fin : Bool)
    (hk : 1 ≤ k) (hkm : k ≤ m) (hks : k < bs.length) :
    (⟨bs, k :: splits, fin⟩ : Stream).read m =
      (⟨k, bs.take k ++ List.replicate (m - k) 0, false⟩, ⟨bs.drop k, splits, fin⟩) := by
  have hm : m ≠ 0 := by omega
  have hbs : bs.isEmpty = false := by cases bs <;> simp_all
  have hn : min (max ((k :: splits).headD m) 1) (min m bs.length) = k := by
    rw [List.headD_cons]; omega
  simp only [read, hm, if_false, hbs, Bool.false_eq_true, hn, beq_eq_false_iff_ne.2 hks.ne,
    Bool.and_false]
  rfl

/-- A full `Read` of a frame's header. -/
theorem read_header (msgType : Nat) (data rest : List (BitVec 8)) (fin : Bool) :
    (⟨encodeMessage msgType data ++ rest, [], fin⟩ : Stream).read 6 =
      (⟨6, headerBytes msgType (data.length % 4294967296), fin && (data ++ rest).isEmpty⟩,
        ⟨data ++ rest, [], fin⟩) := by
  have h := read_full (headerBytes msgType (data.length % 4294967296)) (data ++ rest) fin
  rw [length_headerBytes, ← List.append_assoc] at h
  rw [encodeMessage, h]
  rfl

/-- A `Read` of a frame's header that the transport cuts to its six bytes, the payload not empty. -/
theorem read_header_split (msgType : Nat) {data : List (BitVec 8)} (hd : data ≠ [])
    (rest : List (BitVec 8)) (splits : List Nat) (fin : Bool) :
    (⟨encodeMessage msgType data ++ rest, 6 :: splits, fin⟩ : Stream).read 6 =
      (⟨6, headerBytes msgType (data.length % 4294967296), false⟩, ⟨data ++ rest, splits, fin⟩) := by
  have hlen : 0 < data.length := List.length_pos.2 hd
  rw [read_split splits fin (by decide) le_rfl (by simp only [List.length_cons, List.length_append, length_encodeMessage]; omega), encodeMessage,
    List.append_assoc, List.take_left' (length_headerBytes _ _),
    List.drop_left' (length_headerBytes _ _), Nat.sub_self, List.replicate_zero, List.append_nil]

/-- A `Read` of a payload cut to its first `j` bytes: the rest of the buffer stays zero. -/
theorem read_body_split {data : List (BitVec 8)} (rest : List (BitVec 8)) (splits : List Nat)
    (fin : Bool) {j : Nat} (hj : 1 ≤ j) (hjd : j < data.length) :
    (⟨data ++ rest, j :: splits, fin⟩ : Stream).read data.length =
      (⟨j, data.take j ++ List.replicate (data.length - j) 0, false⟩,
        ⟨data.drop j ++ rest, splits, fin⟩) := by
  rw [read_split splits fin hj hjd.le (by simp only [List.length_cons, List.length_append, length_encodeMessage]; omega), List.take_append_of_le_length hjd.le,
    List.drop_append_of_le_length hjd.le]

/-- The `io.EOF` checks after full reads of a frame's header and body: one fires exactly when the
FIN came with the frame's last bytes, the header's when the payload is empty. -/
theorem eof_header_body {α : Type} (data rest : List (BitVec 8)) (fin : Bool) (atHeader atBody ok : α) :
    (if (fin && (data ++ rest).isEmpty) = true then atHeader
      else if (!data.isEmpty && fin && rest.isEmpty) = true then atBody else ok) =
      if fin = true ∧ rest = [] then (if data = [] then atHeader else atBody) else ok := by
  cases fin with
  | false => simp
  | true =>
    cases rest with
    | nil => cases data <;> simp
    | cons b rest => simp

/-- With full reads, `ReadMessage` returns a frame and leaves the stream after it, unless the FIN
came with the frame's last bytes: then it returns `io.EOF` and the frame is lost. -/
theorem readMessage_encodeMessage {msgType : Nat} (ht : msgType < 65536) {data : List (BitVec 8)}
    (hd : data.length < 4294967296) (rest : List (BitVec 8)) (fin : Bool) :
    (⟨encodeMessage msgType data ++ rest, [], fin⟩ : Stream).readMessage =
      (if fin = true ∧ rest = [] then .error .eof else .ok (encodeMessage msgType data),
        ⟨rest, [], fin⟩) := by
  rw [readMessage, read_header]
  dsimp only
  rw [decodeHeader_headerBytes_frame ht hd]
  simp only [ne_eq, not_true_eq_false, if_false, read_full, encodeMessage, Nat.mod_eq_of_lt hd,
    eof_header_body]
  split_ifs <;> simp_all

/-- Frames read in full, followed by more data or by a FIN of their own, leave the stream after
them. -/
theorem readMessages_append (frames : List (Nat × List (BitVec 8)))
    (h : ∀ f ∈ frames, f.1 < 65536 ∧ f.2.length < 4294967296) {rest : List (BitVec 8)} {fin : Bool}
    (hopen : fin = false ∨ rest ≠ []) (k : Nat) :
    readMessages ⟨(frames.map fun f => encodeMessage f.1 f.2).flatten ++ rest, [], fin⟩
        (frames.length + k) =
      (frames.map fun f => .ok (encodeMessage f.1 f.2)) ++ readMessages ⟨rest, [], fin⟩ k := by
  induction frames with
  | nil => simp
  | cons f frames ih =>
    obtain ⟨ht, hd⟩ := h f (List.mem_cons_self _ _)
    have hmore : ¬(fin = true ∧ (frames.map fun f => encodeMessage f.1 f.2).flatten ++ rest = []) :=
      fun ⟨hfin, hnil⟩ => hopen.elim (by simp [hfin]) (· (List.append_eq_nil.1 hnil).2)
    simp only [List.map_cons, List.flatten_cons, List.length_cons, List.append_assoc,
      Nat.add_right_comm _ 1 k, readMessages, readMessage_encodeMessage ht hd, if_neg hmore,
      List.cons_append]
    rw [ih fun g hg => h g (List.mem_cons_of_mem _ hg)]

/-- With full reads, successive `ReadMessage` calls return the frames written, in order; when the
FIN came with the last frame's bytes, that frame is lost and `io.EOF` comes in its place. -/
theorem readMessages_frames (frames : List (Nat × List (BitVec 8)))
    (h : ∀ f ∈ frames, f.1 < 65536 ∧ f.2.length < 4294967296) (rest : List (BitVec 8)) (fin : Bool) :
    readMessages ⟨(frames.map fun f => encodeMessage f.1 f.2).flatten ++ rest, [], fin⟩
        frames.length =
      if fin = true ∧ rest = [] ∧ frames ≠ [] then
        (frames.dropLast.map fun f => .ok (encodeMessage f.1 f.2)) ++ [.error .eof]
      else frames.map fun f => .ok (encodeMessage f.1 f.2) := by
  by_cases hlast : fin = true ∧ rest = [] ∧ frames ≠ []
  · rw [if_pos hlast]
    obtain ⟨rfl, rfl, hne⟩ := hlast
    obtain ⟨init, last, rfl⟩ := (List.eq_nil_or_concat frames).resolve_left hne
    rw [List.concat_eq_append] at h ⊢
    obtain ⟨ht, hd⟩ := h last (by simp)
    have hinit := @readMessages_append init (fun f hf => h f (by simp [hf]))
      (encodeMessage last.1 last.2) true (Or.inr (encodeMessage_ne_nil _ _)) 1
    simp only [List.map_append, List.map_singleton, List.flatten_append, List.flatten_singleton,
      List.append_nil, List.length_append, List.length_singleton] at hinit ⊢
    rw [hinit, List.dropLast_concat]
    have hlost := readMessage_encodeMessage ht hd [] true
    simp only [List.append_nil, and_self, if_true] at hlost
    rw [readMessages, readMessages, hlost]
  · rw [if_neg hlast]
    cases frames with
    | nil => rfl
    | cons f frames =>
      have hopen : fin = false ∨ rest ≠ [] := by
        cases fin <;> simp_all
      have hall := readMessages_append (f :: frames) h hopen 0
      rwa [Nat.add_zero, readMessages, List.append_nil] at hall

/-- A one-byte `ControlHello` frame, then an empty frame of type 1, the FIN coming with the
second: `ReadMessage` returns the first frame and then `io.EOF`. -/
theorem readMessages_frames_at_two :
    (∀ f ∈ [(msgControlHello, [7#8]), (1, [])], f.1 < 65536 ∧ f.2.length < 4294967296) ∧
      readMessages ⟨([(msgControlHello, [7#8]), (1, [])].map fun f => encodeMessage f.1 f.2).flatten
          ++ [], [], true⟩ 2 =
        [.ok (encodeMessage msgControlHello [7#8]), .error .eof] :=
  ⟨by decide, (readMessages_frames [(msgControlHello, [7#8]), (1, [])] (by decide) [] true).trans rfl⟩

end Stream

open Stream

/-- With full reads, `handleConnection` hands `DecodeMessage` the `ControlHello` payload that
follows the stream-type byte, unless the FIN came with the frame's last bytes: then the `Read`
of the body (or of the header, for an empty payload) returns `io.EOF` and the handshake fails. -/
theorem handleConnection_hello {data : List (BitVec 8)} (hd : data.length < 4294967296)
    (rest : List (BitVec 8)) (fin : Bool) :
    handleConnection ⟨0#8 :: (encodeMessage msgControlHello data ++ rest), [], fin⟩ =
      if fin = true ∧ rest = [] then
        (if data = [] then .error .failedToReadMessageHeader else .error .failedToReadMessageBody)
      else .ok data := by
  have hbyte : (⟨0#8 :: (encodeMessage msgControlHello data ++ rest), [], fin⟩ : Stream).read 1 =
      (⟨1, [0#8], false⟩, ⟨encodeMessage msgControlHello data ++ rest, [], fin⟩) :=
    (read_full [0#8] (encodeMessage msgControlHello data ++ rest) fin).trans (by simp [List.isEmpty_iff])
  rw [handleConnection, hbyte]
  dsimp only
  rw [read_header]
  dsimp only
  rw [decodeHeader_headerBytes_frame (by decide : msgControlHello < 65536) hd]
  simp only [Bool.false_eq_true, if_false,
    if_neg (show ¬(([0#8] : List (BitVec 8)).headD 0).toNat ≠ controlStream by decide), ne_eq,
    not_true_eq_false, read_full, eof_header_body]

/-- The `ControlHello` that `sendControlHello` writes and closes, its FIN coming with its one
payload byte: `handleConnection` fails to read the body. -/
theorem handleConnection_hello_at_one_byte :
    [7#8].length < 4294967296 ∧
      handleConnection ⟨0#8 :: (encodeMessage msgControlHello [7#8] ++ []), [], true⟩ =
        .error .failedToReadMessageBody :=
  ⟨by decide, (handleConnection_hello (by decide) [] true).trans rfl⟩

/-- A short `Read`, which `io.Reader` allows, breaks both readers: a header read cut to `k < 6`
bytes makes `ReadMessage` fail, and a body read cut to `j` bytes leaves `handleConnection`
decoding the payload's first `j` bytes followed by zeros, with no error. -/
theorem short_read_breaks_framing (msgType : Nat) {data : List (BitVec 8)}
    (hd : data.length < 4294967296) (rest : List (BitVec 8)) (splits : List Nat) (fin : Bool)
    {k j : Nat} (hk : 1 ≤ k) (hk₆ : k < 6) (hj : 1 ≤ j) (hjd : j < data.length) :
    (⟨encodeMessage msgType data ++ rest, k :: splits, fin⟩ : Stream).readMessage.1 =
        .error (.incompleteHeader k) ∧
      handleConnection ⟨0#8 :: (encodeMessage msgControlHello data ++ rest), [1, 6, j], fin⟩ =
        .ok (data.take j ++ List.replicate (data.length - j) 0) := by
  have hne : data ≠ [] := List.ne_nil_of_length_pos (by omega)
  constructor
  · rw [readMessage, read_split splits fin hk (by omega) (by simp only [List.length_cons, List.length_append, length_encodeMessage]; omega)]
    dsimp only
    rw [if_neg Bool.false_ne_true, if_pos (show k ≠ 6 by omega)]
  · rw [handleConnection, read_split [6, j] fin le_rfl le_rfl (by simp only [List.length_cons, List.length_append, length_encodeMessage]; omega)]
    dsimp only
    rw [List.drop_succ_cons, List.drop_zero, read_header_split _ hne]
    dsimp only
    rw [decodeHeader_headerBytes_frame (by decide : msgControlHello < 65536) hd]
    dsimp only
    rw [read_body_split rest [] fin hj hjd]
    rfl

/-- One frame of three payload bytes: a 1-byte header read, and a 1-byte body read. -/
theorem short_read_breaks_framing_at_one :
    (1 ≤ 1 ∧ 1 < 6 ∧ 1 < [7#8, 8#8, 9#8].length) ∧
      (⟨encodeMessage msgControlHello [7#8, 8#8, 9#8] ++ [], [1], true⟩ : Stream).readMessage.1 =
        .error (.incompleteHeader 1) ∧
      handleConnection ⟨0#8 :: (encodeMessage msgControlHello [7#8, 8#8, 9#8] ++ []), [1, 6, 1], true⟩ =
        .ok ([7#8, 8#8, 9#8].take 1 ++ List.replicate ([7#8, 8#8, 9#8].length - 1) 0) :=
  ⟨by decide, short_read_breaks_framing msgControlHello (by decide) [] [] true le_rfl (by decide) le_rfl
    (by decide)⟩

end HoloCompute.Hyperbus
