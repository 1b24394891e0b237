import Cpe464.Original.ProcessCore
import Cpe464.Original.CopySteps

/-!
The loop of the server child: whatever arrives and whatever `read` returns, it ends, and it has
sent the chunks in their order.
-/

namespace Original

open Bytes Transition
open RemoteCopy (Setup)

inductive Script (setup : Setup) : Nat → List (List UInt8) → Prop
  | stops (number : Nat) : Script setup number []
  | ends {number : Nat} (seqNum : UInt32) (unset behind : UInt8) : setup.numChunks < number →
      Script setup number [datagram setup.serverHost seqNum Flag.endOfFile.code [unset] behind]
  | chunk {number times : Nat} {rest : List (List UInt8)} (behind : UInt8) : times ≤ 5 →
      number ≤ setup.numChunks → Script setup (number + 1) rest →
      Script setup number (List.replicate (times + 1) (datagram setup.serverHost
        (UInt32.ofNat number) Flag.data.code (setup.chunk number) behind) ++ rest)

theorem Script.length_le {setup : Setup} {number : Nat} {sent : List (List UInt8)}
    (script : Script setup number sent) :
    sent.length ≤ 6 * (setup.numChunks + 1 - number) + 1 := by
  induction script with
  | stops => exact Nat.zero_le _
  | ends => exact Nat.le_add_left _ _
  | chunk _ few inside _ ih =>
      rw [List.length_append, List.length_replicate]
      omega

structure Place (setup : Setup) (count : Nat) (server : Server) : Prop where
  seqNum : server.seqNum = count + 1
  bounded : count ≤ setup.numChunks
  offset : server.offset = setup.offset count
  fresh : server.state = .sendData → server.sendCount = 0
  held : server.state = .waitOnAck ∨ server.state = .timeoutOnAck → 1 ≤ count ∧
    server.sendCount ≤ 5 ∧ ∃ behind, server.packet.bytes.take server.packetLen =
      datagram setup.serverHost (UInt32.ofNat count) Flag.data.code (setup.chunk count) behind

def Budget (setup : Setup) (server : Server) (sent : List (List UInt8)) : Prop :=
  match server.state with
  | .sendData => Script setup server.seqNum.toNat sent
  | .waitOnAck => ∃ times rest, times + server.sendCount ≤ 5 ∧
      Script setup server.seqNum.toNat rest ∧
        sent = List.replicate times (server.packet.bytes.take server.packetLen) ++ rest
  | .timeoutOnAck => ∃ times rest, times + server.sendCount ≤ 5 ∧
      Script setup server.seqNum.toNat rest ∧
        sent = List.replicate (times + 1) (server.packet.bytes.take server.packetLen) ++ rest
  | .done => sent = []
  | .exited => sent = []

def Server.rank (setup : Setup) (server : Server) : Nat :=
  let left := 40 * (setup.file.length - server.offset)
  match server.state with
  | .sendData => left + 20
  | .waitOnAck => left + 21 + 2 * (5 - server.sendCount)
  | .timeoutOnAck => left + 22 + 2 * (5 - server.sendCount)
  | .done => 0
  | .exited => 0

section

variable {setup : Setup} {server next : Server} {sent : List (List UInt8)} {outside : Outside}

theorem Budget.ofOver (past : server.Over) : Budget setup server [] := by
  rcases past with state | state <;> simp [Budget, state]

structure Progress (setup : Setup) (server next : Server) (sent : List (List UInt8)) : Prop where
  place : ∃ count, Place setup count next
  lower : next.rank setup < server.rank setup
  spends : ∀ rest, Budget setup next rest → Budget setup server (sent ++ rest)

variable {count : Nat}

theorem Place.ends (place : Place setup count server) (state : ServerState)
    (packet : Buffer maxLen) (packetLen sendCount : Nat)
    (past : state = .done ∨ state = .exited) :
    Place setup count { server with state, packet, packetLen, sendCount } := by
  refine ⟨place.seqNum, place.bounded, place.offset, ?_, ?_⟩
  all_goals rcases past with rfl | rfl <;> simp

theorem Place.sendData (place : Place setup count server) (few : setup.numChunks + 2 < 2 ^ 31)
    (state : server.state = .sendData) :
    ∃ next sent, processClient setup outside server = some (next, sent) ∧
      Progress setup server next sent := by
  have fresh := place.fresh state
  have bounded := place.bounded
  have number : UInt32.ofInt (count + 1) = UInt32.ofNat (count + 1) := ofInt_natCast (count + 1)
  simp only [processClient, state]
  cases fails : outside.readFails with
  | true =>
      refine ⟨{ server with state := .done }, [], rfl,
        ⟨count, place.ends .done _ _ _ (.inl rfl)⟩, ?_, ?_⟩
      · simp [Server.rank, state]
      · rintro rest rfl
        rw [Budget, state]
        exact .stops _
  | false =>
      rw [place.offset, setup.readFile_offset]
      by_cases empty : setup.chunk (count + 1) = []
      · rw [empty]
        obtain ⟨packet, behind, sends⟩ := sendData_end setup.serverHost outside.unset server
        refine ⟨_, _, sends, ⟨count, place.ends .done packet 9 _ (.inl rfl)⟩, ?_, ?_⟩
        · simp [Server.rank, state]
        · rintro rest rfl
          rw [setup.chunk_eq_nil_iff] at empty
          rw [Budget, state]
          refine .ends _ _ behind ?_
          rw [place.seqNum]
          omega
      · have short := setup.chunk_short (count + 1)
        have before : ¬setup.numChunks ≤ count := by rwa [← setup.chunk_eq_nil_iff]
        obtain ⟨packet, behind, sends, held⟩ := sendData_chunk setup.serverHost empty
          (by simp only [RemoteCopy.maxPacketLength] at short; simp only [maxLen]; omega)
          outside.unset server (by rw [place.seqNum]; omega)
        rw [place.seqNum, number] at sends held
        refine ⟨_, _, sends, ⟨count + 1, rfl, ?_, ?_, ?_, ?_⟩, ?_, ?_⟩
        · omega
        · rw [setup.offset_succ, ← place.offset]
        · simp
        · exact fun _ => ⟨Nat.succ_pos _, by simp [fresh], behind, held⟩
        · rw [setup.numChunks_le_iff] at before
          have inside : server.offset < setup.file.length := by
            rw [place.offset, Setup.offset]
            omega
          have positive := List.length_pos_iff.mpr empty
          simp only [Server.rank, state, fresh]
          omega
        · rintro rest ⟨times, others, bound, script, rfl⟩
          simp only at script
          simp only [Budget, state, place.seqNum, held]
          rw [← List.append_assoc, List.singleton_append, ← List.replicate_succ]
          refine .chunk behind ?_ ?_ script
          · omega
          · omega

theorem waitOnAck_cases (host : ByteOrder) (arrived : Option (Buffer maxLen × List UInt8))
    (server : Server) :
    let next := waitOnAck host arrived server
    let sendCount := server.sendCount + 1
    next = { server with state := .done, sendCount } ∨ (server.sendCount < 5 ∧
      (next = { server with state := .timeoutOnAck, sendCount } ∨
        next = { server with state := .waitOnAck, sendCount } ∨
        next = { server with state := .exited, sendCount } ∨
        next = { server with state := .sendData, sendCount := 0 })) := by
  intro next sendCount
  simp only [next, waitOnAck]
  by_cases past : server.sendCount + 1 > 5
  · rw [if_pos past]
    exact .inl rfl
  · rw [if_neg past]
    refine .inr ⟨by omega, ?_⟩
    match arrived with
    | none => exact .inl rfl
    | some (stale, datagram) => exact .inr (receiveAck_cases host stale datagram _)

theorem Place.waitOnAck (place : Place setup count server) (state : server.state = .waitOnAck) :
    ∃ next sent, processClient setup outside server = some (next, sent) ∧
      Progress setup server next sent := by
  obtain ⟨positive, patient, held⟩ := place.held (.inl state)
  simp only [processClient, state]
  refine ⟨_, _, rfl, ?_⟩
  rcases waitOnAck_cases setup.serverHost outside.arrived server with
    same | ⟨few, same | same | same | same⟩
  · rw [same]
    refine ⟨⟨count, place.ends .done _ _ _ (.inl rfl)⟩, ?_, ?_⟩
    · simp only [Server.rank, state]
      omega
    · rintro rest rfl
      simp only [Budget, state]
      exact ⟨0, [], by omega, .stops _, rfl⟩
  · rw [same]
    refine ⟨⟨count, place.seqNum, place.bounded, place.offset, by simp, fun _ =>
      ⟨positive, few, held⟩⟩, ?_, ?_⟩
    · simp only [Server.rank, state]
      omega
    · rintro rest ⟨times, others, bound, script, rfl⟩
      simp only [Budget, state]
      exact ⟨times + 1, others, by simp only at bound; omega, script, rfl⟩
  · rw [same]
    refine ⟨⟨count, place.seqNum, place.bounded, place.offset, by simp, fun _ =>
      ⟨positive, few, held⟩⟩, ?_, ?_⟩
    · simp only [Server.rank, state]
      omega
    · rintro rest ⟨times, others, bound, script, rfl⟩
      simp only [Budget, state]
      exact ⟨times, others, by simp only at bound; omega, script, rfl⟩
  · rw [same]
    refine ⟨⟨count, place.ends .exited _ _ _ (.inr rfl)⟩, ?_, ?_⟩
    · simp only [Server.rank, state]
      omega
    · rintro rest rfl
      simp only [Budget, state]
      exact ⟨0, [], by omega, .stops _, rfl⟩
  · rw [same]
    refine ⟨⟨count, place.seqNum, place.bounded, place.offset, by simp, by simp⟩, ?_, ?_⟩
    · simp only [Server.rank, state]
      omega
    · intro rest script
      simp only [Budget, state]
      exact ⟨0, rest, by omega, script, rfl⟩

theorem Place.timeoutOnAck (place : Place setup count server)
    (state : server.state = .timeoutOnAck) :
    ∃ next sent, processClient setup outside server = some (next, sent) ∧
      Progress setup server next sent := by
  obtain ⟨positive, patient, held⟩ := place.held (.inr state)
  simp only [processClient, state]
  refine ⟨_, _, rfl, ⟨count, place.seqNum, place.bounded, place.offset, by simp, fun _ =>
    ⟨positive, patient, held⟩⟩, ?_, ?_⟩
  · simp only [Server.rank, state]
    omega
  · rintro rest ⟨times, others, bound, script, rfl⟩
    simp only [Budget, state]
    exact ⟨times, others, bound, script, by rw [List.replicate_succ]; rfl⟩

theorem Place.progress (place : Place setup count server) (few : setup.numChunks + 2 < 2 ^ 31)
    (going : ¬server.Over) :
    ∃ next sent, processClient setup outside server = some (next, sent) ∧
      Progress setup server next sent := by
  cases state : server.state with
  | sendData => exact place.sendData few state
  | waitOnAck => exact place.waitOnAck state
  | timeoutOnAck => exact place.timeoutOnAck state
  | done => exact absurd (.inl state) going
  | exited => exact absurd (.inr state) going

end

/-- Whatever arrives and whatever `read` returns: the child ends. It has sent the chunks in their
order, none of them more than six times, and END_OF_FILE only behind the last one. -/
theorem child_ends (setup : Setup) (few : setup.numChunks + 2 < 2 ^ 31) (packet : Buffer maxLen)
    (inputs : Nat → Outside) : ∃ rounds last sent,
      child setup rounds inputs (Server.start packet) = some (last, sent) ∧ last.Over ∧
        Script setup 1 sent ∧ sent.length ≤ 6 * setup.numChunks + 1 := by
  have place : ∃ count, Place setup count (Server.start packet) :=
    ⟨0, rfl, Nat.zero_le _, by simp [Server.start, Setup.offset], by simp [Server.start],
      by simp [Server.start]⟩
  have rounds (input : Outside) (server : Server) (_ : True)
      (placed : ∃ count, Place setup count server) (going : ¬server.Over) :
      ∃ next sent, processClient setup input server = some (next, sent) ∧
        (∃ count, Place setup count next) ∧ next.rank setup < server.rank setup ∧
          ∀ rest, Budget setup next rest → Budget setup server (sent ++ rest) := by
    obtain ⟨count, place⟩ := placed
    obtain ⟨next, sent, taken, progress⟩ := place.progress few going
    exact ⟨next, sent, taken, progress.place, progress.lower, progress.spends⟩
  obtain ⟨count, last, sent, executed, past, script⟩ : ∃ count last sent,
      child setup count inputs (Server.start packet) = some (last, sent) ∧ last.Over ∧
        Script setup 1 sent :=
    loop_ends (fun _ => True) (Server.rank setup) (fun _ => Budget.ofOver) rounds place
      fun _ => trivial
  exact ⟨count, last, sent, executed, past, script, by simpa using script.length_le⟩

theorem child_ends_twoChunks : ∃ rounds last sent,
    child twoChunks rounds (fun _ => ⟨false, 0, none⟩) (Server.start (Buffer.zero maxLen)) =
      some (last, sent) ∧
      last.Over ∧ Script twoChunks 1 sent ∧ sent.length ≤ 6 * twoChunks.numChunks + 1 :=
  child_ends twoChunks (by decide +kernel) _ _

/-! The child when nothing arrives. -/

theorem silent_waits (setup : Setup) (left : Nat) (inputs : Nat → Outside) (server : Server)
    (silent : ∀ round, (inputs round).arrived = none)
    (state : server.state = .waitOnAck) (counted : server.sendCount + left = 5) :
    ∃ last, child setup (2 * left + 1) inputs server = some (last,
      List.replicate left (server.packet.bytes.take server.packetLen)) ∧ last.state = .done := by
  induction left generalizing inputs server with
  | zero =>
      have going : ¬server.Over := by simp [Server.Over, state]
      have stops : processClient setup (inputs 0) server =
          some ({ server with state := .done, sendCount := server.sendCount + 1 }, []) := by
        simp only [processClient, state, waitOnAck]
        rw [if_pos (by omega)]
      exact ⟨_, by rw [child, loop_succ going stops]; rfl, rfl⟩
  | succ left ih =>
      have going : ¬server.Over := by simp [Server.Over, state]
      have waits : processClient setup (inputs 0) server =
          some ({ server with state := .timeoutOnAck, sendCount := server.sendCount + 1 }, []) := by
        simp only [processClient, state, waitOnAck, silent 0, receiveAck]
        rw [if_neg (by omega)]
      obtain ⟨last, executed, past⟩ := ih (fun round => inputs (round + 2))
        { server with state := .waitOnAck, sendCount := server.sendCount + 1 }
        (fun round => silent (round + 2)) rfl (by simp only; omega)
      refine ⟨last, ?_, past⟩
      rw [child, show 2 * (left + 1) + 1 = 2 * left + 1 + 1 + 1 by omega, loop_succ going waits,
        loop_succ (by simp [Server.Over]) rfl]
      simp only [child] at executed
      simp [executed, List.replicate_succ]

/-- A client that does not answer gets the first chunk six times: once, and for the five times that
the child counts. -/
theorem child_silent (setup : Setup) (nonempty : setup.file ≠ []) (packet : Buffer maxLen)
    (inputs : Nat → Outside) (reads : (inputs 0).readFails = false)
    (silent : ∀ round, (inputs round).arrived = none) :
    ∃ last behind, child setup 12 inputs (Server.start packet) = some (last, List.replicate 6
      (datagram setup.serverHost 1 Flag.data.code (setup.chunk 1) behind)) ∧
        last.state = .done := by
  have first : setup.chunk (0 + 1) ≠ [] := by
    rw [ne_eq, setup.chunk_eq_nil_iff, setup.numChunks_le_iff, Nat.zero_mul, Nat.le_zero,
      List.length_eq_zero_iff]
    exact nonempty
  have short := setup.chunk_short (0 + 1)
  obtain ⟨next, behind, sends, held⟩ := sendData_chunk setup.serverHost first
    (by simp only [RemoteCopy.maxPacketLength] at short; simp only [maxLen]; omega)
    (inputs 0).unset (Server.start packet) (by simp [Server.start])
  have offset : (Server.start packet).offset = setup.offset 0 := by
    simp [Server.start, Setup.offset]
  obtain ⟨server, taken, state, counted, packet'⟩ : ∃ server,
      processClient setup (inputs 0) (Server.start packet) = some (server,
        [datagram setup.serverHost 1 Flag.data.code (setup.chunk 1) behind]) ∧
      server.state = .waitOnAck ∧ server.sendCount = 0 ∧
      server.packet.bytes.take server.packetLen =
        datagram setup.serverHost 1 Flag.data.code (setup.chunk 1) behind := by
    refine ⟨_, (congrArg (sendData setup.serverHost · (inputs 0).unset (Server.start packet)) ?_).trans
      sends, rfl, rfl, held⟩
    rw [reads, offset, setup.readFile_offset]
  obtain ⟨last, executed, past⟩ := silent_waits setup 5 (fun round => inputs (round + 1)) server
    (fun round => silent (round + 1)) state (by omega)
  refine ⟨last, behind, ?_, past⟩
  rw [child, loop_succ (by simp [Server.Over, Server.start]) taken]
  simp only [child] at executed
  rw [executed, packet']
  rfl

theorem child_silent_twoChunks : ∃ last behind,
    child twoChunks 12 (fun _ => ⟨false, 0, none⟩) (Server.start (Buffer.zero maxLen)) =
      some (last, List.replicate 6 (datagram twoChunks.serverHost 1 Flag.data.code
        (twoChunks.chunk 1) behind)) ∧ last.state = .done :=
  child_silent twoChunks (by decide +kernel) _ _ rfl fun _ => rfl

end Original
