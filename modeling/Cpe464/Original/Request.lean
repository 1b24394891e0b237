import Cpe464.Original.Cut
import Cpe464.Original.ProcessCore

/-!
The request of the stop-and-wait copy on its way from rcopy to `filename` of the server, which
receives at most 1000 bytes of it.
-/

namespace Original

open Bytes
open RemoteCopy (crcError asInt32 transfer)

def RoundTrips (client server : ByteOrder) (fname : List UInt8) (bufSize : Int) : Prop :=
  ∀ packet buf stale : Buffer maxLen, ∃ sent, requestFile client packet fname bufSize = some sent ∧
    ∀ opens, mainLoop server opens buf stale sent =
      match opens fname with
      | none => some .refused
      | some file => some (.started file bufSize)

theorem requestData_length (host : ByteOrder) (fname : List UInt8) (bufSize : Int) :
    (requestData host fname bufSize).length = fname.length + 5 := by
  simp [requestData]
  omega

theorem requestFile_eq (host : ByteOrder) (packet : Buffer maxLen) (fname : List UInt8)
    (bufSize : Int) (short : fname.length ≤ 1000) : ∃ behind,
      requestFile host packet fname bufSize =
        some (datagram host 0 Flag.fname.code (requestData host fname bufSize) behind) := by
  have length := requestData_length host fname bufSize
  obtain ⟨next, behind, sends, _⟩ := sendBuf_eq host packet (requestData host fname bufSize)
    Flag.fname.code 0 (by simp only [maxLen]; omega)
  exact ⟨behind, by rw [requestFile, sends, Option.map_some]⟩

theorem filename_received (client server : ByteOrder)
    (opens : List UInt8 → Option (List UInt8)) (buf : Buffer maxLen) (bufSize : Int)
    (name : List UInt8) (short : name.length + 4 ≤ maxLen) :
    filename server opens (buf.store 0 (client.split32 (UInt32.ofInt bufSize) ++ name))
        (name.length + 4 : Nat) =
      if 0 ∈ name then
        match opens (name.takeWhile (· ≠ 0)) with
        | none => some .refused
        | some file => some (.started file (transfer client server bufSize))
      else none := by
  have bytes := Buffer.store_start buf (client.split32 (UInt32.ofInt bufSize) ++ name)
    (by rw [List.length_append, ByteOrder.split32_length]; omega)
  generalize buf.store 0 (client.split32 (UInt32.ofInt bufSize) ++ name) = stored at bytes
  have copied : (stored.bytes.drop 4).take (((name.length + 4 : Nat) : Int) - 4).toNat = name := by
    rw [bytes, List.append_assoc, List.drop_left' (by simp), List.take_left' (by omega)]
  have number : asInt32 (server.word32 (stored.fetch 0) (stored.fetch 1) (stored.fetch 2)
      (stored.fetch 3)) = transfer client server bufSize := by
    simp only [Buffer.fetch, bytes]
    cases client <;> rfl
  have long : ¬((name.length + 4 : Nat) : Int) < 4 := by omega
  cases found : opens (name.takeWhile (· ≠ 0)) <;>
    simp only [filename, copied, number, if_neg long, found]

section

variable (client server : ByteOrder) (fname : List UInt8) (bufSize : Int) (named : 0 ∉ fname)

include named

theorem request_arrives (short : fname.length ≤ 987) (opens : List UInt8 → Option (List UInt8))
    (buf stale : Buffer maxLen) (behind : UInt8) :
    mainLoop server opens buf stale
        (datagram client 0 Flag.fname.code (requestData client fname bufSize) behind) =
      match opens fname with
      | none => some .refused
      | some file => some (.started file (transfer client server bufSize)) := by
  have length := requestData_length client fname bufSize
  have arrives := (recvBuf_datagram client server stale 1000 (by decide) 0 Flag.fname.code
    (requestData client fname bufSize) behind (by omega)).1
  have accepted : (((requestData client fname bufSize).length : Nat) : Int) ≠ crcError := by
    rw [crcError]
    omega
  have found := filename_received client server opens buf bufSize (fname ++ [0])
    (by simp only [maxLen, List.length_append, List.length_singleton]; omega)
  simp only [mainLoop, arrives]
  rw [if_neg accepted, length, requestData]
  rw [List.length_append, List.length_singleton, if_pos (by simp),
    RemoteCopy.cString_copied fname named] at found
  exact found

theorem request_cut (long : 988 ≤ fname.length) (short : fname.length ≤ 1000)
    (opens : List UInt8 → Option (List UInt8)) (buf stale : Buffer maxLen) (behind : UInt8) :
    mainLoop server opens buf stale
        (datagram client 0 Flag.fname.code (requestData client fname bufSize) behind) =
      some .ignored ∨
    mainLoop server opens buf stale
        (datagram client 0 Flag.fname.code (requestData client fname bufSize) behind) = none := by
  have length := requestData_length client fname bufSize
  have received := recvBuf_cut client server stale (by decide) (by decide) 0 Flag.fname.code
    (requestData client fname bufSize) behind (by omega : 1000 < _)
    (by simp only [maxLen]; omega)
  simp only at received
  split at received
  · right
    have data : (requestData client fname bufSize).take 992 =
        client.split32 (UInt32.ofInt bufSize) ++ fname.take 988 := by
      rw [requestData, List.take_append, ByteOrder.split32_length,
        List.take_of_length_le (by simp), List.take_append_of_le_length (by omega)]
    have front : (fname.take 988).length = 988 := List.length_take_of_le long
    have found := filename_received client server opens buf bufSize (fname.take 988)
      (by rw [front]; decide)
    rw [if_neg (fun member => named (List.mem_of_mem_take member)), front] at found
    simp only [mainLoop, received, data]
    exact found
  · left
    simp only [mainLoop, received]

end

/-- A request is understood exactly when the hosts store numbers in the same order and the name is
at most 987 bytes long, though rcopy takes names of 1000. -/
theorem request_understood_iff (client server : ByteOrder) (fname : List UInt8) (bufSize : Int)
    (named : 0 ∉ fname) (short : fname.length ≤ 1000) (lower : 400 ≤ bufSize)
    (upper : bufSize ≤ 1400) :
    RoundTrips client server fname bufSize ↔ client = server ∧ fname.length ≤ 987 := by
  constructor
  · intro roundTrips
    obtain ⟨sent, requests, served⟩ := roundTrips (Buffer.zero _) (Buffer.zero _) (Buffer.zero _)
    obtain ⟨behind, same⟩ := requestFile_eq client (Buffer.zero _) fname bufSize short
    obtain rfl := Option.some.inj (same.symm.trans requests)
    have opened := served fun _ => some []
    simp only at opened
    have fits : fname.length ≤ 987 := by
      by_contra long
      rcases request_cut client server fname bufSize named (by omega) short (fun _ => some [])
        (Buffer.zero _) (Buffer.zero _) behind with ignored | undefined
      · rw [ignored] at opened
        cases opened
      · rw [undefined] at opened
        cases opened
    refine ⟨?_, fits⟩
    by_contra different
    rw [request_arrives client server fname bufSize named fits] at opened
    simp only [Option.some.injEq, Outcome.started.injEq, true_and] at opened
    exact RemoteCopy.transfer_other different bufSize lower upper opened
  · rintro ⟨rfl, fits⟩ packet buf stale
    obtain ⟨behind, requests⟩ := requestFile_eq client packet fname bufSize short
    refine ⟨_, requests, fun opens => ?_⟩
    rw [request_arrives client client fname bufSize named fits,
      RemoteCopy.transfer_same client bufSize (by omega) (by omega)]

theorem request_understood_a : RoundTrips .little .little [97] 400 :=
  (request_understood_iff .little .little [97] 400 (by decide) (by decide) (by decide)
    (by decide)).mpr ⟨rfl, by decide⟩

end Original
