import Mathlib.Data.List.AList
import HoloCompute.Hyperbus.Protocol

/-!
# `QUICBus.Connect` and the connections map

`Connect` generates a TLS configuration, dials the node, wraps the QUIC connection in a new
`QUICConnection` and stores it in `b.connections[node.ID]`, and only then sends `ControlHello`
on a control stream. When the hello fails, `Connect` closes the connection and returns the
error, but the map keeps the closed connection.

The calls `Connect` makes outside the bus are inputs (`ConnectEnv`): their error, or for
`OpenStreamSync` the new stream's ID. The map's values are connection objects, and `conns` lists
them in allocation order, so the new `QUICConnection` is the next index and differs from every
value already in the map (`QUICBus.allocated`). Once the dial has succeeded, `Connect` always
points `node.ID` at the new connection. The connection is open when `Connect` returns nil and
closed when it returns an error (`connect_connections`).
-/

namespace HoloCompute.Hyperbus
set_option autoImplicit false

/-- `NodeInfo`, with the fields `Connect` reads: `ID`, and `Address.String()`. -/
structure NodeInfo where
  id : NodeID
  address : String

/-- The outcomes of the calls `Connect` makes outside the bus; `none` is success, `ε` the
libraries' errors. -/
structure ConnectEnv (ε : Type) where
  /-- `generateTLSConfig()`. -/
  tlsConfig : Option ε
  /-- `quic.DialAddr` to an address. -/
  dialAddr : String → Option ε
  /-- `conn.OpenStreamSync(ctx)`: the new stream's ID. -/
  openStreamSync : Except ε Nat
  /-- `qstream.Write` of the stream-type byte. -/
  writeStreamType : Option ε
  /-- `proto.Marshal` of the `ControlHello`. -/
  marshal : Option ε
  /-- `stream.WriteMessage` of the encoded `ControlHello`. -/
  writeMessage : Option ε

/-- `QUICConnection.OpenStream`'s errors. -/
inductive OpenStreamError (ε : Type) where
  /-- `"failed to open QUIC stream: %w"` -/
  | failedToOpenQUICStream (e : ε)
  /-- `"failed to write stream type: %w"` -/
  | failedToWriteStreamType (e : ε)
  deriving DecidableEq, Repr

/-- `EncodeMessage`'s error here; writing to a `bytes.Buffer` does not fail. -/
inductive EncodeError (ε : Type) where
  /-- `"failed to marshal protobuf: %w"` -/
  | failedToMarshalProtobuf (e : ε)
  deriving DecidableEq, Repr

/-- `sendControlHello`'s errors. -/
inductive HelloError (ε : Type) where
  /-- `"failed to open control stream: %w"` -/
  | failedToOpenControlStream (e : OpenStreamError ε)
  /-- `"failed to encode ControlHello: %w"` -/
  | failedToEncodeControlHello (e : EncodeError ε)
  /-- `"failed to send ControlHello: %w"` around `WriteMessage`'s error. -/
  | failedToSendControlHello (e : ε)
  deriving DecidableEq, Repr

/-- `Connect`'s errors. -/
inductive ConnectError (ε : Type) where
  /-- `"failed to generate TLS config: %w"` -/
  | failedToGenerateTLSConfig (e : ε)
  /-- `"failed to dial remote node: %w"` -/
  | failedToDialRemoteNode (e : ε)
  /-- `"failed to send ControlHello: %w"` around `sendControlHello`'s error. -/
  | failedToSendControlHello (e : HelloError ε)
  deriving DecidableEq, Repr

/-- A `QUICConnection`: its remote node, whether its `quic.Conn` has been closed, and the keys of
its `streams` map. -/
structure QUICConnection where
  nodeID : NodeID
  closed : Bool
  streams : List Nat
  deriving DecidableEq, Repr

namespace QUICConnection

variable {ε : Type}

/-- `OpenStream(ctx, ControlStream)`: open a stream and write its type byte. The stream is
recorded in `streams` only if the write succeeds; otherwise it is closed. -/
def openStream (env : ConnectEnv ε) (c : QUICConnection) : Except (OpenStreamError ε) Nat × QUICConnection :=
  match env.openStreamSync with
  | .error e => (.error (.failedToOpenQUICStream e), c)
  | .ok sid =>
    match env.writeStreamType with
    | some e => (.error (.failedToWriteStreamType e), c)
    | none => (.ok sid, { c with streams := c.streams.insert sid })

/-- Opening a stream changes only the connection's streams. -/
theorem openStream_frame (env : ConnectEnv ε) (c : QUICConnection) :
    (c.openStream env).2.nodeID = c.nodeID ∧ (c.openStream env).2.closed = c.closed := by
  unfold openStream
  split
  · exact ⟨rfl, rfl⟩
  · split <;> exact ⟨rfl, rfl⟩

/-- `Close()`: `CloseWithError` on the QUIC connection. -/
def close (c : QUICConnection) : QUICConnection := { c with closed := true }

end QUICConnection

/-- `QUICBus`'s `connections` map. Its values index `conns`, the `QUICConnection` objects in
allocation order, and each is already allocated. -/
structure QUICBus where
  connections : AList (fun _ : NodeID => Nat)
  conns : List QUICConnection
  allocated : ∀ id r, connections.lookup id = some r → r < conns.length

namespace QUICBus

variable {ε : Type}

/-- The bus `New` makes: no connection. -/
def empty : QUICBus := ⟨∅, [], fun _ _ h => by cases h⟩

/-- `qconn := &QUICConnection{…}` followed by `b.connections[id] = qconn`. -/
def storeNew (b : QUICBus) (id : NodeID) (c : QUICConnection) : QUICBus :=
  ⟨b.connections.insert id b.conns.length, b.conns ++ [c], by
    intro id' r h
    by_cases hid : id' = id
    · subst hid; rw [AList.lookup_insert] at h; cases h; simp
    · rw [AList.lookup_insert_ne hid] at h
      have := b.allocated id' r h
      simp only [List.length_append, List.length_singleton]; omega⟩

/-- A write through the pointer to connection `r`. -/
def setConn (b : QUICBus) (r : Nat) (c : QUICConnection) : QUICBus :=
  ⟨b.connections, b.conns.set r c, by simpa using b.allocated⟩

/-- `sendControlHello(ctx, conn)`: open the control stream, encode `ControlHello` and write it. -/
def sendControlHello (env : ConnectEnv ε) (c : QUICConnection) : Except (HelloError ε) Unit × QUICConnection :=
  match c.openStream env with
  | (.error e, c) => (.error (.failedToOpenControlStream e), c)
  | (.ok _, c) =>
    match env.marshal with
    | some e => (.error (.failedToEncodeControlHello (.failedToMarshalProtobuf e)), c)
    | none =>
      match env.writeMessage with
      | some e => (.error (.failedToSendControlHello e), c)
      | none => (.ok (), c)

/-- `Connect(ctx, node)`. The new connection is stored before `sendControlHello` runs on it;
on a hello error it is closed, and the map keeps it. -/
def connect (env : ConnectEnv ε) (b : QUICBus) (node : NodeInfo) : Except (ConnectError ε) Unit × QUICBus :=
  match env.tlsConfig with
  | some e => (.error (.failedToGenerateTLSConfig e), b)
  | none =>
    match env.dialAddr node.address with
    | some e => (.error (.failedToDialRemoteNode e), b)
    | none =>
      let qconn : QUICConnection := ⟨node.id, false, []⟩
      let r := b.conns.length
      let b := b.storeNew node.id qconn
      match sendControlHello env qconn with
      | (.error e, qconn) => (.error (.failedToSendControlHello e), b.setConn r qconn.close)
      | (.ok (), qconn) => (.ok (), b.setConn r qconn)

/-- `sendControlHello` changes only the connection's streams. -/
theorem sendControlHello_frame (env : ConnectEnv ε) (c : QUICConnection) :
    (sendControlHello env c).2.nodeID = c.nodeID ∧ (sendControlHello env c).2.closed = c.closed := by
  have h := c.openStream_frame env
  unfold sendControlHello
  split <;> rename_i hc <;> rw [hc] at h
  · exact h
  · split
    · exact h
    · split <;> exact h

/-- Storing a new connection and writing it back leaves the map pointing `id` at a connection
that was not in it before, and every other key alone. -/
theorem storeNew_setConn (b : QUICBus) (id : NodeID) (c c' : QUICConnection) :
    let b' := (b.storeNew id c).setConn b.conns.length c'
    b'.connections = b.connections.insert id b.conns.length ∧
      b'.connections.lookup id ≠ b.connections.lookup id ∧ b'.conns[b.conns.length]? = some c' := by
  refine ⟨rfl, fun h => ?_, by simp [storeNew, setConn]⟩
  simp only [setConn, storeNew, AList.lookup_insert] at h
  exact Nat.lt_irrefl _ (b.allocated id _ h.symm)

/-- For every bus, node and outcome of the outside calls: a failed TLS setup or dial leaves the
bus as it was. Once the dial has succeeded, `Connect` points `node.ID` at a new connection to
`node.ID`, whatever it returns. That connection is open if it returns nil and closed if it
returns an error, and every other entry of the map is unchanged. -/
theorem connect_connections (env : ConnectEnv ε) (b : QUICBus) (node : NodeInfo) :
    let r := b.connect env node
    ((env.tlsConfig.isSome ∨ (env.dialAddr node.address).isSome) → r.2 = b ∧ r.1 ≠ .ok ()) ∧
      (env.tlsConfig = none → env.dialAddr node.address = none →
        r.2.connections = b.connections.insert node.id b.conns.length ∧
          r.2.connections.lookup node.id ≠ b.connections.lookup node.id ∧
          ∃ c, r.2.conns[b.conns.length]? = some c ∧ c.nodeID = node.id ∧
            (c.closed = true ↔ r.1 ≠ .ok ())) := by
  obtain ⟨hid, hcl⟩ := sendControlHello_frame env ⟨node.id, false, []⟩
  unfold connect
  split
  case h_1 e htls =>
    exact ⟨fun _ => ⟨rfl, nofun⟩, fun h => by simp [htls] at h⟩
  case h_2 htls =>
  split
  case h_1 e hdial =>
    exact ⟨fun _ => ⟨rfl, nofun⟩, fun _ h => by simp [hdial] at h⟩
  case h_2 hdial =>
  refine ⟨fun h => by simp [htls, hdial] at h, fun _ _ => ?_⟩
  dsimp only
  split
  case h_1 e qconn hsend =>
    rw [hsend] at hid hcl
    obtain ⟨h₁, h₂, h₃⟩ := storeNew_setConn b node.id ⟨node.id, false, []⟩ qconn.close
    exact ⟨h₁, h₂, _, h₃, hid, by simp [QUICConnection.close]⟩
  case h_2 qconn hsend =>
    rw [hsend] at hid hcl
    obtain ⟨h₁, h₂, h₃⟩ := storeNew_setConn b node.id ⟨node.id, false, []⟩ qconn
    exact ⟨h₁, h₂, _, h₃, hid, by simpa using hcl⟩

/-- From an empty bus, a `Connect` whose control stream fails to open returns an error and still
maps the node to a closed connection. -/
theorem connect_connections_at_failed_stream :
    let env : ConnectEnv Unit := ⟨none, fun _ => none, .error (), none, none, none⟩
    let r := empty.connect env ⟨"node-b", "10.0.0.2:7000"⟩
    r.1 = .error (.failedToSendControlHello (.failedToOpenControlStream (.failedToOpenQUICStream ()))) ∧
      r.2.connections.lookup "node-b" ≠ empty.connections.lookup "node-b" ∧
      (∃ c, r.2.conns[0]? = some c ∧ c.nodeID = "node-b" ∧ c.closed = true) ∧
      (empty.connect { env with tlsConfig := some () } ⟨"node-b", "10.0.0.2:7000"⟩).2 = empty := by
  intro env r
  obtain ⟨-, h₂, c, hc, hn, hcl⟩ := (connect_connections env empty ⟨"node-b", "10.0.0.2:7000"⟩).2 rfl rfl
  refine ⟨rfl, h₂, ⟨c, hc, hn, hcl.2 nofun⟩,
    ((connect_connections { env with tlsConfig := some () } empty ⟨"node-b", "10.0.0.2:7000"⟩).1
      (.inl rfl)).1⟩

end QUICBus

end HoloCompute.Hyperbus
