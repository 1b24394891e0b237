import Mathlib.Data.List.InsertIdx
import Cpe464.RemoteCopy.Rcopy
import Cpe464.RemoteCopy.ServerSteps
import Cpe464.RemoteCopy.TransferCore

/-!
The pieces of a transfer step: how the file is cut into chunks, what is received from a
channel, and what each event does to the state.
-/

namespace RemoteCopy

open Bytes

/-! The chunks of the file. -/

namespace Setup

variable (setup : Setup)

theorem chunk_length_le (number : Nat) : (setup.chunk number).length ≤ setup.bufSize := by
  exact List.length_take_le _ _

theorem chunk_short (number : Nat) : (setup.chunk number).length ≤ maxPacketLength := by
  exact Nat.le_trans (setup.chunk_length_le number) setup.bufSize_le

theorem numChunks_le_iff (count : Nat) :
    setup.numChunks ≤ count ↔ setup.file.length ≤ count * setup.bufSize := by
  have positive := setup.bufSize_pos
  rw [numChunks, ← Nat.lt_succ_iff, Nat.div_lt_iff_lt_mul positive, Nat.succ_mul]
  omega

theorem chunk_eq_nil_iff (count : Nat) : setup.chunk (count + 1) = [] ↔ setup.numChunks ≤ count := by
  have positive := setup.bufSize_pos
  rw [numChunks_le_iff, chunk, ← List.length_eq_zero_iff, List.length_take, List.length_drop,
    Nat.add_sub_cancel]
  omega

theorem chunk_full (number : Nat) (positive : 1 ≤ number) (before : number < setup.numChunks) :
    (setup.chunk number).length = setup.bufSize := by
  have rest : ¬setup.numChunks ≤ number := by omega
  rw [numChunks_le_iff] at rest
  have step : number * setup.bufSize = (number - 1) * setup.bufSize + setup.bufSize := by
    rw [← Nat.succ_mul]
    congr 1
    omega
  rw [chunk, List.length_take, List.length_drop]
  omega

def offset (count : Nat) : Nat := min (count * setup.bufSize) setup.file.length

theorem readFile_offset (count : Nat) :
    readFile setup false (setup.offset count) = some (setup.chunk (count + 1)) := by
  simp only [readFile, chunk, offset, Nat.add_sub_cancel, Bool.false_eq_true, if_false,
    Option.some.injEq]
  by_cases inside : count * setup.bufSize ≤ setup.file.length
  · rw [Nat.min_eq_left inside]
  · rw [Nat.min_eq_right (by omega), List.drop_length,
      List.drop_eq_nil_of_le (by omega : setup.file.length ≤ count * setup.bufSize)]

theorem offset_succ (count : Nat) :
    setup.offset (count + 1) = setup.offset count + (setup.chunk (count + 1)).length := by
  simp only [offset, chunk, Nat.add_sub_cancel, List.length_take, List.length_drop, Nat.succ_mul]
  omega

theorem chunks_flatten (count : Nat) :
    ((List.range count).map fun index => setup.chunk (index + 1)).flatten =
      setup.file.take (count * setup.bufSize) := by
  induction count with
  | zero => simp
  | succ count ih =>
      rw [List.range_succ, List.map_append, List.flatten_append, ih, Nat.succ_mul, List.take_add]
      simp [chunk]

theorem chunks_complete : ((List.range setup.numChunks).map fun index =>
    setup.chunk (index + 1)).flatten = setup.file := by
  rw [chunks_flatten, List.take_of_length_le ((setup.numChunks_le_iff _).mp (Nat.le_refl _))]

end Setup

/-! Datagrams. -/

def Setup.rrFlight (setup : Setup) (seqNum : Int) : Flight :=
  .intact (frame setup.clientHost (UInt32.ofInt seqNum) Flag.rr.code [])

def Setup.srejFlight (setup : Setup) (seqNum : Int) : Flight :=
  .intact (frame setup.clientHost (UInt32.ofInt seqNum) Flag.srej.code [])

def Setup.fnameOkFlight (setup : Setup) : Flight :=
  .intact (frame setup.serverHost 0 Flag.fnameOk.code [])

def Setup.endFlight (setup : Setup) (seqNum : UInt32) : Flight :=
  .intact (frame setup.serverHost seqNum Flag.endOfFile.code [])

def blocks (actions : List ClientAction) : List (List UInt8) :=
  (writes actions).map fun written => written.1.bytes.take written.2.toNat

def Setup.control (setup : Setup) : ClientAction → Option Flight
  | .write _ _ => none
  | .rr seqNum => some (setup.rrFlight seqNum)
  | .srej seqNum => some (setup.srejFlight seqNum)

def Setup.controls (setup : Setup) (actions : List ClientAction) : List Flight :=
  actions.filterMap setup.control

theorem perform_eq (setup : Setup) (control : Packet) (actions : List ClientAction) :
    perform setup.clientHost control actions = some (blocks actions, setup.controls actions) := by
  induction actions with
  | nil => rfl
  | cons action rest ih =>
      cases action with
      | write payload length =>
          simp only [perform, ih, Option.bind_eq_bind, Option.bind_some]
          rfl
      | rr seqNum =>
          simp only [perform, ih, sendRr_eq, Option.bind_eq_bind, Option.bind_some]
          rfl
      | srej seqNum =>
          simp only [perform, ih, sendSrej_eq, Option.bind_eq_bind, Option.bind_some]
          rfl

theorem receive_corrupted {host : ByteOrder} {stack : Packet} {rest channel : List Flight}
    {received : Int × Packet}
    (taken : receive host stack (.corrupted :: channel) = some (received, rest)) :
    rest = channel ∧ received.1 = crcError := by
  simp only [receive, Option.some.injEq, Prod.mk.injEq] at taken
  obtain ⟨rfl, rfl⟩ := taken
  exact ⟨rfl, rfl⟩

theorem receive_frame {host sender : ByteOrder} {stack : Packet} {rest channel : List Flight}
    {received : Int × Packet} {seqNum : UInt32} {flag : UInt8} {data : List UInt8}
    (short : data.length ≤ maxPacketLength)
    (taken : receive host stack (.intact (frame sender seqNum flag data) :: channel) =
      some (received, rest)) :
    rest = channel ∧ received.1 = data.length ∧ received.2.seqNum = seqNum ∧
      received.2.flag = flag ∧
      received.2.payload.bytes = data ++ List.replicate (maxPacketLength - data.length) 0 := by
  obtain ⟨packet, decodes, sequence, kind, _, payload⟩ :=
    recvPacket_frame sender host stack seqNum flag data short
  simp only [receive, decodes, Option.bind_eq_bind, Option.bind_some, Option.some.injEq,
    Prod.mk.injEq] at taken
  obtain ⟨rfl, rfl⟩ := taken
  exact ⟨rfl, rfl, sequence, kind, payload⟩

theorem receive_cons {host : ByteOrder} {stack : Packet} {channel rest : List Flight}
    {received : Int × Packet} (taken : receive host stack channel = some (received, rest)) :
    ∃ flight, channel = flight :: rest := by
  cases channel with
  | nil => cases taken
  | cons flight later =>
      cases flight with
      | corrupted =>
          obtain ⟨rfl, _⟩ := receive_corrupted taken
          exact ⟨_, rfl⟩
      | intact datagram =>
          simp only [receive, Option.bind_eq_bind, Option.bind_eq_some_iff, Option.some.injEq,
            Prod.mk.injEq] at taken
          obtain ⟨_, _, _, rfl⟩ := taken
          exact ⟨_, rfl⟩

/-! Events. -/

def Subchannel (after before : List Flight) : Prop :=
  ∀ flight ∈ after, flight = .corrupted ∨ flight ∈ before

inductive Moves (setup : Setup) (transfer : Transfer) : Event → Transfer → Prop
  | send {readFails arrived next sent} : transfer.server.state = .sendData →
      sendData setup.serverHost (readFile setup readFails transfer.server.offset) arrived
        transfer.server = some (next, sent) →
      Moves setup transfer (.serverSend readFails arrived) { transfer with
        server := next
        toClient := transfer.toClient ++ sent.map .intact
        sent := transfer.sent ++ sent
        readZero := transfer.readZero || (!isClosed transfer.server.window &&
          readFile setup readFails transfer.server.offset == some []) }
  | process {stack received rest next sent} : transfer.server.state = .process →
      receive setup.serverHost stack transfer.toServer = some (received, rest) →
      process received transfer.server = some (next, sent) →
      Moves setup transfer (.serverProcess stack) { transfer with
        server := next
        toServer := rest
        toClient := transfer.toClient ++ sent.map .intact
        rrReceived := transfer.rrReceived ++ acceptedRr received }
  | wait {arrived next sent} : transfer.server.state = .waitOnAck →
      waitOnAck arrived transfer.server = some (next, sent) →
      Moves setup transfer (.serverWait arrived) { transfer with
        server := next
        toClient := transfer.toClient ++ sent.map .intact }
  | bye {packet next sent} : transfer.server.state = .bye →
      bye setup.serverHost packet none transfer.server = some (next, sent) →
      Moves setup transfer (.serverBye packet) { transfer with
        server := next
        toClient := transfer.toClient ++ sent.map .intact }
  | hear {stack received rest} : transfer.server.state = .bye → 0 < transfer.server.byeCount →
      receive setup.serverHost stack transfer.toServer = some (received, rest) →
      Moves setup transfer (.serverReceive stack) { transfer with
        server := byeReceive received transfer.server
        toServer := rest }
  | receive {stack control received rest client window actions} :
      receive setup.clientHost stack transfer.toClient = some (received, rest) →
      clientStep transfer.window (some received) transfer.client =
        some (client, window, actions) →
      Moves setup transfer (.clientReceive stack control) { transfer with
        client
        window
        toClient := rest
        toServer := transfer.toServer ++ setup.controls actions
        output := transfer.output ++ blocks actions
        ended := transfer.ended || acceptsEnd received client }
  | timeout {client window actions} :
      clientStep transfer.window none transfer.client = some (client, window, actions) →
      Moves setup transfer .clientTimeout { transfer with client, window }
  | networkToServer {event channel} : disturb event transfer.toServer = some channel →
      Moves setup transfer event { transfer with toServer := channel }
  | networkToClient {event channel} : disturb event transfer.toClient = some channel →
      Moves setup transfer event { transfer with toClient := channel }

theorem step_moves {setup : Setup} {event : Event} {transfer next : Transfer}
    (taken : step setup event transfer = some next) : Moves setup transfer event next := by
  have network (direction : Direction) (event : Event)
      (taken : disturbed direction event transfer = some next) :
      Moves setup transfer event next := by
    cases direction with
    | toServer =>
        simp only [disturbed, Option.map_eq_some_iff] at taken
        obtain ⟨channel, disturbs, rfl⟩ := taken
        exact .networkToServer disturbs
    | toClient =>
        simp only [disturbed, Option.map_eq_some_iff] at taken
        obtain ⟨channel, disturbs, rfl⟩ := taken
        exact .networkToClient disturbs
  cases event with
  | serverSend readFails arrived =>
      simp only [step] at taken
      split at taken
      · rename_i enabled
        simp only [serverSend, Option.bind_eq_bind, Option.bind_eq_some_iff,
          Option.some.injEq] at taken
        obtain ⟨⟨server, sent⟩, sends, rfl⟩ := taken
        exact .send enabled sends
      · cases taken
  | serverProcess stack =>
      simp only [step] at taken
      split at taken
      · rename_i enabled
        simp only [serverProcess, Option.bind_eq_bind, Option.bind_eq_some_iff,
          Option.some.injEq] at taken
        obtain ⟨⟨received, rest⟩, receives, ⟨server, sent⟩, processes, rfl⟩ := taken
        exact .process enabled receives processes
      · cases taken
  | serverWait arrived =>
      simp only [step] at taken
      split at taken
      · rename_i enabled
        simp only [serverWait, Option.bind_eq_bind, Option.bind_eq_some_iff,
          Option.some.injEq] at taken
        obtain ⟨⟨server, sent⟩, waits, rfl⟩ := taken
        exact .wait enabled.1 waits
      · cases taken
  | serverBye packet =>
      simp only [step] at taken
      split at taken
      · rename_i enabled
        simp only [serverBye, Option.bind_eq_bind, Option.bind_eq_some_iff,
          Option.some.injEq] at taken
        obtain ⟨⟨server, sent⟩, answers, rfl⟩ := taken
        exact .bye enabled answers
      · cases taken
  | serverReceive stack =>
      simp only [step] at taken
      split at taken
      · rename_i enabled
        simp only [serverReceive, afterServer, List.map_nil, List.append_nil, Option.bind_eq_bind,
          Option.bind_eq_some_iff, Option.some.injEq] at taken
        obtain ⟨⟨received, rest⟩, receives, rfl⟩ := taken
        exact .hear enabled.1 enabled.2 receives
      · cases taken
  | clientReceive stack control =>
      simp only [step, clientReceive, perform_eq, Option.bind_eq_bind, Option.bind_eq_some_iff,
        Option.bind_some, Option.some.injEq] at taken
      obtain ⟨⟨received, rest⟩, receives, ⟨client, window, actions⟩, steps, rfl⟩ := taken
      exact .receive receives steps
  | clientTimeout =>
      simp only [step, clientTimeout, Option.bind_eq_bind, Option.bind_eq_some_iff,
        Option.some.injEq] at taken
      obtain ⟨⟨client, window, actions⟩, steps, rfl⟩ := taken
      exact .timeout steps
  | lose direction index => exact network direction _ taken
  | duplicate direction index => exact network direction _ taken
  | overtake direction index => exact network direction _ taken
  | corrupt direction index => exact network direction _ taken

theorem disturb_subchannel {event : Event} {before after : List Flight}
    (disturbs : disturb event before = some after) : Subchannel after before := by
  intro flight member
  cases event with
  | lose direction index =>
      simp only [disturb] at disturbs
      split at disturbs
      · simp only [Option.some.injEq] at disturbs
        subst disturbs
        exact Or.inr (List.mem_of_mem_eraseIdx member)
      · cases disturbs
  | duplicate direction index =>
      simp only [disturb, Option.bind_eq_bind, Option.bind_eq_some_iff,
        Option.some.injEq] at disturbs
      obtain ⟨copy, found, rfl⟩ := disturbs
      right
      rcases List.eq_or_mem_of_mem_insertIdx member with rfl | inside
      · exact List.mem_of_getElem? found
      · exact inside
  | overtake direction index =>
      simp only [disturb, Option.bind_eq_bind, Option.bind_eq_some_iff,
        Option.some.injEq] at disturbs
      obtain ⟨moved, found, rfl⟩ := disturbs
      right
      rcases List.eq_or_mem_of_mem_insertIdx member with rfl | inside
      · exact List.mem_of_getElem? found
      · exact List.mem_of_mem_eraseIdx inside
  | corrupt direction index =>
      simp only [disturb] at disturbs
      split at disturbs
      · simp only [Option.some.injEq] at disturbs
        subst disturbs
        rcases List.mem_or_eq_of_mem_set member with inside | rfl
        · exact Or.inr inside
        · exact Or.inl rfl
      · cases disturbs
  | _ => cases disturbs

end RemoteCopy
