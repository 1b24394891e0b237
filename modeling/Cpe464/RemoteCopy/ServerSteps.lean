import Cpe464.RemoteCopy.Packet
import Cpe464.RemoteCopy.RcopyCore
import Cpe464.RemoteCopy.ServerCore
import Cpe464.RemoteCopy.Window

/-!
What the state functions of the server can do, and the datagrams that both parties
send. A constructed packet is sent as a `frame`, whatever its arrays held before.
-/

namespace RemoteCopy

open Bytes

theorem ofNat_header (count : Nat) (short : count ≤ maxPacketLength) :
    (UInt32.ofNat (headerLength + count)).toNat = headerLength + count := by
  simp only [headerLength, maxPacketLength, UInt32.toNat_ofNat'] at short ⊢
  omega

theorem sendPacket2_construct (host : ByteOrder) (packet : Packet) (count : Nat)
    (size : packet.size = UInt32.ofNat (headerLength + count)) (short : count ≤ maxPacketLength) :
    sendPacket2 (construct host packet) =
      some (frame host packet.seqNum packet.flag (packet.payload.bytes.take count)) := by
  have value : packet.size.toNat = headerLength + count := by
    rw [size, ofNat_header count short]
  have nonzero : (construct host packet).size ≠ 0 := by
    intro zero
    have same : packet.size = 0 := zero
    rw [same] at value
    simp only [headerLength, UInt32.toNat_zero] at value
    omega
  rw [sendPacket2, if_neg nonzero, ← construct_take host packet count value short]
  rfl

theorem sendRr_eq (host : ByteOrder) (rr : Packet) (seqNum : Int) :
    sendRr host rr seqNum = some (frame host (UInt32.ofInt seqNum) Flag.rr.code []) := by
  exact sendPacket2_construct host { rr with
    seqNum := UInt32.ofInt seqNum
    flag := Flag.rr.code
    size := UInt32.ofNat headerLength } 0 rfl (Nat.zero_le _)

theorem sendSrej_eq (host : ByteOrder) (srej : Packet) (seqNum : Int) :
    sendSrej host srej seqNum = some (frame host (UInt32.ofInt seqNum) Flag.srej.code []) := by
  exact sendPacket2_construct host { srej with
    seqNum := UInt32.ofInt seqNum
    flag := Flag.srej.code
    size := UInt32.ofNat headerLength } 0 rfl (Nat.zero_le _)

def ServerState.Finished (state : ServerState) : Prop :=
  state = .bye ∨ state = .done ∨ state = .exited

section

variable {host : ByteOrder} {server : Server} {next : Server} {sent : List (List UInt8)}

theorem sendData_inverts {chunk : Option (List UInt8)} {arrived : Bool}
    (short : ∀ data, chunk = some data → data.length ≤ maxPacketLength)
    (taken : sendData host chunk arrived server = some (next, sent)) :
    (server.window.top < server.window.middle ∧
      next = { server with state := .waitOnAck } ∧ sent = []) ∨
    (server.window.middle ≤ server.window.top ∧ sent = [] ∧
      ((chunk = none ∧ ∃ packet, next = { server with state := .done, packet }) ∨
        (chunk = some [] ∧ ∃ packet : Packet, packet.seqNum = UInt32.ofInt server.window.middle ∧
          next = { server with
            state := .waitOnAck, packet, eofIndex := asInt32 packet.number }))) ∨
    (server.window.middle ≤ server.window.top ∧ ∃ data packet datagram window,
      chunk = some data ∧ data ≠ [] ∧ packet.seqNum = UInt32.ofInt server.window.middle ∧
      datagram = frame host (UInt32.ofInt server.window.middle) Flag.data.code data ∧
      sendPacket2 packet = some datagram ∧ sent = [datagram] ∧
      addToBuffer (server.window.withMiddle (asInt32 (server.window.middle + 1))) packet =
        some window ∧
      next = { server with
        state := if arrived then .process else .sendData
        window
        packet
        offset := server.offset + data.length }) := by
  unfold sendData at taken
  by_cases closed : isClosed server.window = true
  · rw [if_pos closed, Option.some.injEq, Prod.mk.injEq] at taken
    obtain ⟨rfl, rfl⟩ := taken
    left
    exact ⟨by simpa [isClosed] using closed, rfl, rfl⟩
  rw [if_neg closed] at taken
  have opened : server.window.middle ≤ server.window.top := by simpa [isClosed] using closed
  rcases chunk with _ | data
  · simp only [Option.some.injEq, Prod.mk.injEq] at taken
    obtain ⟨rfl, rfl⟩ := taken
    exact Or.inr (Or.inl ⟨opened, rfl, Or.inl ⟨rfl, _, rfl⟩⟩)
  by_cases empty : data.length = 0
  · simp only [if_pos empty, Option.some.injEq, Prod.mk.injEq] at taken
    obtain ⟨rfl, rfl⟩ := taken
    right; left
    exact ⟨opened, rfl, Or.inr ⟨by rw [List.length_eq_zero_iff.mp empty], _, rfl, rfl⟩⟩
  · right; right
    have fits := short data rfl
    have sends := sendPacket2_construct host { server.packet with
      flag := Flag.data.code
      payload := server.packet.payload.store 0 data
      seqNum := UInt32.ofInt server.window.middle
      size := UInt32.ofNat (headerLength + data.length) } data.length rfl fits
    simp only [Buffer.store_start _ data fits, List.take_left] at sends
    simp only [if_neg empty, sends, Option.bind_eq_bind, Option.bind_eq_some_iff,
      Option.some.injEq, Prod.mk.injEq] at taken
    obtain ⟨window, adds, rfl, rfl⟩ := taken
    refine ⟨opened, data, _, _, window, rfl, ?_, rfl, rfl, sends, rfl, adds, rfl⟩
    rintro rfl
    exact empty rfl

theorem sendData_cases {chunk : Option (List UInt8)} {arrived : Bool}
    (wellFormed : server.window.WellFormed) (lower : 1 ≤ server.window.middle)
    (short : ∀ data, chunk = some data → data.length ≤ maxPacketLength)
    (taken : sendData host chunk arrived server = some (next, sent)) :
    (server.window.top < server.window.middle ∧
      next = { server with state := .waitOnAck } ∧ sent = []) ∨
    (server.window.middle ≤ server.window.top ∧ sent = [] ∧
      ((chunk = none ∧ ∃ packet, next = { server with state := .done, packet }) ∨
        (chunk = some [] ∧ ∃ packet, next = { server with
          state := .waitOnAck, packet, eofIndex := server.window.middle }))) ∨
    (server.window.middle ≤ server.window.top ∧ ∃ data packet datagram,
      chunk = some data ∧ data ≠ [] ∧ packet.number = server.window.middle ∧
      datagram = frame host (UInt32.ofInt server.window.middle) Flag.data.code data ∧
      sendPacket2 packet = some datagram ∧ sent = [datagram] ∧
      next = { server with
        state := if arrived then .process else .sendData
        window := (server.window.withMiddle (asInt32 (server.window.middle + 1))).put packet
        packet
        offset := server.offset + data.length }) := by
  have topBound := wellFormed.top_lt
  have number (opened : server.window.middle ≤ server.window.top) {packet : Packet}
      (sequence : packet.seqNum = UInt32.ofInt server.window.middle) :
      packet.number = server.window.middle := by
    rw [Packet.number, sequence]
    exact ofInt_toNat server.window.middle (by omega) (by omega)
  rcases sendData_inverts short taken with closed |
    ⟨opened, unsent, failed | ⟨none, packet, sequence, made⟩⟩ |
    ⟨opened, data, packet, datagram, window, read, nonempty, sequence, framed, sends, same, adds,
      made⟩
  · exact Or.inl closed
  · exact Or.inr (Or.inl ⟨opened, unsent, Or.inl failed⟩)
  · refine Or.inr (Or.inl ⟨opened, unsent, Or.inr ⟨none, packet, ?_⟩⟩)
    rw [made, number opened sequence, asInt32_eq server.window.middle (by omega) (by omega)]
  · have numbered := number opened sequence
    rw [addToBuffer_eq (withMiddle_wellFormed wellFormed _) packet (by omega),
      Option.some.injEq] at adds
    exact Or.inr (Or.inr ⟨opened, data, packet, datagram, read, nonempty, numbered, framed, sends,
      same, by rw [made, adds]⟩)

/-- Both ways of sending a packet of the window again. The slot is sent as it was constructed,
and the process ends when it was never filled. -/
def Resends (server : Server) (seqNum : Int) (state : ServerState) (next : Server)
    (sent : List (List UInt8)) : Prop :=
  (sendPacket2 (server.window.stored seqNum) = none ∧
    next = { server with state := .exited, waitCount := next.waitCount } ∧ sent = []) ∨
  (∃ datagram, sendPacket2 (server.window.stored seqNum) = some datagram ∧
    next = { server with state, waitCount := next.waitCount } ∧ sent = [datagram])

def Repeats (server : Server) (packet : Packet) (state : ServerState) (next : Server)
    (sent : List (List UInt8)) : Prop :=
  (sendPacket2 packet = none ∧
    next = { server with state := .exited, waitCount := next.waitCount } ∧ sent = []) ∨
  (∃ datagram, sendPacket2 packet = some datagram ∧
    next = { server with state, waitCount := next.waitCount } ∧ sent = [datagram])

theorem process_inverts {code : Int} {packet : Packet}
    (taken : process (code, packet) server = some (next, sent)) :
    (code = crcError ∧ next = { server with state := .waitOnAck } ∧ sent = []) ∨
    (code ≠ crcError ∧ packet.flag = Flag.rr.code ∧ sent = [] ∧ ∃ window,
      (if asInt32 packet.number > server.window.bottom then
        slide server.window (asInt32 packet.number) else some server.window) = some window ∧
      next = { server with
        state := if asInt32 packet.number = server.eofIndex then .bye else .sendData
        window }) ∨
    (code ≠ crcError ∧ packet.flag = Flag.srej.code ∧ ∃ resend,
      getFromBuffer server.window (asInt32 packet.number) = some resend ∧
      next.waitCount = server.waitCount ∧ Repeats server resend .sendData next sent) ∨
    (code ≠ crcError ∧ packet.flag ≠ Flag.rr.code ∧ packet.flag ≠ Flag.srej.code ∧
      next = { server with state := .sendData } ∧ sent = []) := by
  unfold process at taken
  by_cases rejected : code = crcError
  · simp only [if_pos rejected, Option.some.injEq, Prod.mk.injEq] at taken
    obtain ⟨rfl, rfl⟩ := taken
    exact Or.inl ⟨rejected, rfl, rfl⟩
  simp only [if_neg rejected] at taken
  by_cases rr : packet.flag = Flag.rr.code
  · right; left
    simp only [if_pos rr] at taken
    by_cases forward : asInt32 packet.number > server.window.bottom
    · simp only [if_pos forward, Option.bind_eq_bind, Option.bind_eq_some_iff, Option.some.injEq,
        Prod.mk.injEq] at taken
      obtain ⟨window, slides, made, rfl⟩ := taken
      exact ⟨rejected, rr, rfl, window, by rw [if_pos forward, slides], made.symm⟩
    · simp only [if_neg forward, Option.bind_eq_bind, Option.bind_some, Option.some.injEq,
        Prod.mk.injEq] at taken
      obtain ⟨made, rfl⟩ := taken
      exact ⟨rejected, rr, rfl, server.window, if_neg forward, made.symm⟩
  simp only [if_neg rr] at taken
  by_cases srej : packet.flag = Flag.srej.code
  · right; right; left
    simp only [if_pos srej, Option.bind_eq_bind, Option.bind_eq_some_iff] at taken
    obtain ⟨resend, found, taken⟩ := taken
    refine ⟨rejected, srej, resend, found, ?_⟩
    split at taken
    · rename_i fails
      simp only [Option.some.injEq, Prod.mk.injEq] at taken
      obtain ⟨rfl, rfl⟩ := taken
      exact ⟨rfl, Or.inl ⟨fails, rfl, rfl⟩⟩
    · rename_i datagram sends
      simp only [Option.some.injEq, Prod.mk.injEq] at taken
      obtain ⟨rfl, rfl⟩ := taken
      exact ⟨rfl, Or.inr ⟨datagram, sends, rfl, rfl⟩⟩
  · simp only [if_neg srej, Option.some.injEq, Prod.mk.injEq] at taken
    obtain ⟨rfl, rfl⟩ := taken
    exact Or.inr (Or.inr (Or.inr ⟨rejected, rr, srej, rfl, rfl⟩))

theorem process_cases {code : Int} {packet : Packet} (wellFormed : server.window.WellFormed)
    (rrBound : code ≠ crcError → packet.flag = Flag.rr.code →
      packet.number + server.window.size ≤ 2 ^ 31)
    (srejBound : code ≠ crcError → packet.flag = Flag.srej.code →
      1 ≤ packet.number ∧ packet.number < 2 ^ 31)
    (taken : process (code, packet) server = some (next, sent)) :
    (code = crcError ∧ next = { server with state := .waitOnAck } ∧ sent = []) ∨
    (code ≠ crcError ∧ packet.flag = Flag.rr.code ∧ sent = [] ∧ next = { server with
      state := if packet.number = server.eofIndex then .bye else .sendData
      window := if packet.number > server.window.bottom then server.window.slid packet.number
        else server.window }) ∨
    (code ≠ crcError ∧ packet.flag = Flag.srej.code ∧
      Resends server packet.number .sendData next sent) ∨
    (code ≠ crcError ∧ packet.flag ≠ Flag.rr.code ∧ packet.flag ≠ Flag.srej.code ∧
      next = { server with state := .sendData } ∧ sent = []) := by
  have positive := wellFormed.size_pos
  have natural : 0 ≤ packet.number := Int.natCast_nonneg _
  rcases process_inverts taken with rejected | ⟨accepted, rr, unsent, window, moves, made⟩ |
    ⟨accepted, srej, resend, found, _, repeats⟩ | ignored
  · exact Or.inl rejected
  · have bound := rrBound accepted rr
    rw [asInt32_eq packet.number (by omega) (by omega)] at moves made
    refine Or.inr (Or.inl ⟨accepted, rr, unsent, ?_⟩)
    by_cases forward : packet.number > server.window.bottom
    · rw [if_pos forward, slide_eq wellFormed packet.number (by omega) bound,
        Option.some.injEq] at moves
      rw [made, if_pos forward, moves]
    · rw [if_neg forward, Option.some.injEq] at moves
      rw [made, if_neg forward, moves]
  · obtain ⟨lower, upper⟩ := srejBound accepted srej
    rw [asInt32_eq packet.number (by omega) (by omega),
      getFromBuffer_eq wellFormed packet.number lower (by omega), Option.some.injEq] at found
    rw [← found] at repeats
    exact Or.inr (Or.inr (Or.inl ⟨accepted, srej, repeats⟩))
  · exact Or.inr (Or.inr (Or.inr ignored))

theorem waitOnAck_inverts {arrived : Bool}
    (taken : waitOnAck arrived server = some (next, sent)) :
    (server.waitCount + 1 > 10 ∧ sent = [] ∧
      next = { server with state := .done, waitCount := server.waitCount + 1 }) ∨
    (server.waitCount + 1 ≤ 10 ∧ arrived = true ∧ sent = [] ∧
      next = { server with state := .process, waitCount := 0 }) ∨
    (server.waitCount + 1 ≤ 10 ∧ arrived = false ∧ next.waitCount = server.waitCount + 1 ∧
      ∃ packet, getFromBuffer server.window server.window.bottom = some packet ∧
        Repeats server packet .waitOnAck next sent) := by
  unfold waitOnAck at taken
  by_cases tired : server.waitCount + 1 > 10
  · simp only [if_pos tired, Option.some.injEq, Prod.mk.injEq] at taken
    obtain ⟨rfl, rfl⟩ := taken
    exact Or.inl ⟨tired, rfl, rfl⟩
  cases arrived with
  | true =>
      simp only [if_neg tired, if_true, Option.some.injEq, Prod.mk.injEq] at taken
      obtain ⟨rfl, rfl⟩ := taken
      exact Or.inr (Or.inl ⟨by omega, rfl, rfl, rfl⟩)
  | false =>
      simp only [if_neg tired, Bool.false_eq_true, if_false, Option.bind_eq_bind,
        Option.bind_eq_some_iff] at taken
      obtain ⟨packet, found, taken⟩ := taken
      right; right
      split at taken
      · rename_i fails
        simp only [Option.some.injEq, Prod.mk.injEq] at taken
        obtain ⟨rfl, rfl⟩ := taken
        exact ⟨by omega, rfl, rfl, packet, found, Or.inl ⟨fails, rfl, rfl⟩⟩
      · rename_i datagram sends
        simp only [Option.some.injEq, Prod.mk.injEq] at taken
        obtain ⟨rfl, rfl⟩ := taken
        exact ⟨by omega, rfl, rfl, packet, found, Or.inr ⟨datagram, sends, rfl, rfl⟩⟩

theorem waitOnAck_cases {arrived : Bool} (wellFormed : server.window.WellFormed)
    (taken : waitOnAck arrived server = some (next, sent)) :
    (server.waitCount + 1 > 10 ∧ sent = [] ∧
      next = { server with state := .done, waitCount := server.waitCount + 1 }) ∨
    (server.waitCount + 1 ≤ 10 ∧ arrived = true ∧ sent = [] ∧
      next = { server with state := .process, waitCount := 0 }) ∨
    (server.waitCount + 1 ≤ 10 ∧ arrived = false ∧ next.waitCount = server.waitCount + 1 ∧
      Resends server server.window.bottom .waitOnAck next sent) := by
  have bottom := wellFormed.bottom_pos
  have positive := wellFormed.size_pos
  have top := wellFormed.top_eq
  have topBound := wellFormed.top_lt
  rcases waitOnAck_inverts taken with tired | heard |
    ⟨tries, silent, counted, packet, found, repeats⟩
  · exact Or.inl tired
  · exact Or.inr (Or.inl heard)
  · rw [getFromBuffer_eq wellFormed server.window.bottom bottom (by omega),
      Option.some.injEq] at found
    rw [← found] at repeats
    exact Or.inr (Or.inr ⟨tries, silent, counted, repeats⟩)

theorem byeReceive_cases (received : Int × Packet) (server : Server) :
    ∃ state, (state = .bye ∨ state = .done) ∧
      byeReceive received server = { server with state, byeCount := 0 } := by
  refine ⟨_, ?_, rfl⟩
  split
  · exact Or.inr rfl
  · exact Or.inl rfl

theorem bye_alone (host : ByteOrder) (stack : Packet) (server : Server) :
    bye host stack none server = some ({ server with
      state := if server.byeCount + 1 > 10 then .done else .bye
      byeCount := server.byeCount + 1 },
      [frame host (UInt32.ofInt server.eofIndex) Flag.endOfFile.code []]) := by
  have sends := sendPacket2_construct host { stack with
    flag := Flag.endOfFile.code
    size := UInt32.ofNat headerLength
    seqNum := UInt32.ofInt server.eofIndex } 0 rfl (Nat.zero_le _)
  simp only [bye, sends, List.take_zero]
  split
  · rfl
  · rfl

theorem bye_inverts {stack : Packet} {received : Option (Int × Packet)}
    (taken : bye host stack received server = some (next, sent)) :
    sent = [frame host (UInt32.ofInt server.eofIndex) Flag.endOfFile.code []] ∧
      ∃ state byeCount, (state = .bye ∨ state = .done) ∧
        (byeCount = server.byeCount + 1 ∨ byeCount = 0) ∧
        next = { server with state, byeCount } := by
  have sends := sendPacket2_construct host { stack with
    flag := Flag.endOfFile.code
    size := UInt32.ofNat headerLength
    seqNum := UInt32.ofInt server.eofIndex } 0 rfl (Nat.zero_le _)
  simp only [bye, sends, List.take_zero] at taken
  split at taken
  · simp only [Option.some.injEq, Prod.mk.injEq] at taken
    obtain ⟨rfl, rfl⟩ := taken
    exact ⟨rfl, _, _, Or.inr rfl, Or.inl rfl, rfl⟩
  · rcases received with _ | received
    · simp only [Option.some.injEq, Prod.mk.injEq] at taken
      obtain ⟨rfl, rfl⟩ := taken
      exact ⟨rfl, _, _, Or.inl rfl, Or.inl rfl, rfl⟩
    · simp only [Option.some.injEq, Prod.mk.injEq] at taken
      obtain ⟨rfl, rfl⟩ := taken
      obtain ⟨state, states, made⟩ :=
        byeReceive_cases received { server with byeCount := server.byeCount + 1 }
      exact ⟨rfl, state, 0, states, Or.inr rfl, made⟩

theorem bye_cases {stack : Packet} {received : Option (Int × Packet)}
    (taken : bye host stack received server = some (next, sent)) :
    sent = [frame host (UInt32.ofInt server.eofIndex) Flag.endOfFile.code []] ∧
      (next.state = .bye ∨ next.state = .done) ∧
      next = { server with state := next.state, byeCount := next.byeCount } := by
  obtain ⟨same, state, byeCount, states, _, rfl⟩ := bye_inverts taken
  exact ⟨same, states, rfl⟩

theorem bye_finished {stack : Packet} {received : Option (Int × Packet)}
    (taken : bye host stack received server = some (next, sent)) : next.state.Finished := by
  rcases (bye_cases taken).2.1 with same | same
  · exact Or.inl same
  · exact Or.inr (Or.inl same)

theorem byeReceive_finished (received : Int × Packet) (server : Server) :
    (byeReceive received server).state.Finished := by
  obtain ⟨state, states, made⟩ := byeReceive_cases received server
  rw [made]
  rcases states with same | same
  · exact Or.inl same
  · exact Or.inr (Or.inl same)

end

end RemoteCopy
