import Cpe464.Chat.Table

/-!
Requests for a handle by its index. A client lists the handles one by one, so that the index
may be out of date when the request arrives.
-/

namespace Chat

open Bytes Effects

def requestedIndex (request : Message) : Option Int := (loadInt request.text).map asInt

def RightAnswer (server : Server) (index : Int) (answer : Message) : Prop :=
  if 0 ≤ index ∧ index < server.numOpen then
    ∃ client, server.client index.toNat = some client ∧ answer = handleAnswer client
  else answer = noHandleAnswer

def Answered [Allocator] (fails : Int → Bool) (fd : Int) (server : Server)
    (request : Message) : Prop :=
  ∃ index answer result next, requestedIndex request = some index ∧
    RightAnswer server index answer ∧
    processPacket fails fd (some request.bytes) ⟨server, []⟩ =
      some (result, ⟨next, [(fd, server.response answer)]⟩)

def Fits (server : Server) (index : Int) : Prop :=
  ∃ client, server.client index.toNat = some client ∧ client.string.length ≤ maxHandleSize

def Listable (server : Server) (request : Message) : Prop :=
  ∃ index, requestedIndex request = some index ∧ index ≠ server.numOpen ∧
    (0 ≤ index → index < server.numOpen → Fits server index)

theorem response_flag {server : Server} {first second : Message}
    (same : server.response first = server.response second) : first.flag = second.flag := by
  have unpacked := congrArg unpack same
  simp only [Server.response, unpack_bytes, Option.some.injEq, Message.mk.injEq] at unpacked
  exact unpacked.2.1

theorem requestedIndex_eq_some {request : Message} {index : Int}
    (requested : requestedIndex request = some index) :
    ∃ value, loadInt request.text = some value ∧ asInt value = index := by
  exact Option.map_eq_some_iff.mp requested

section

variable [Allocator] {fails : Int → Bool} {fd : Int} {server : Server} {request : Message}

theorem processPacket_outside (flag : request.flag = 12) {index : Int}
    (requested : requestedIndex request = some index)
    (outside : index < 0 ∨ index > server.numOpen) :
    processPacket fails fd (some request.bytes) ⟨server, []⟩ =
      respond fails fd noHandleAnswer ⟨server, []⟩ := by
  obtain ⟨value, loads, rfl⟩ := requestedIndex_eq_some requested
  rw [processPacket_message (unpack_bytes request)]
  exact listRequest_outside flag loads outside

theorem processPacket_inside (flag : request.flag = 12) {index : Int}
    (requested : requestedIndex request = some index)
    (inside : ¬(index < 0 ∨ index > server.numOpen)) {client : HandleBuffer}
    (entry : server.client index.toNat = some client)
    (short : client.string.length ≤ maxHandleSize) :
    processPacket fails fd (some request.bytes) ⟨server, []⟩ =
      respond fails fd (handleAnswer client) ⟨server, []⟩ := by
  obtain ⟨value, loads, rfl⟩ := requestedIndex_eq_some requested
  rw [processPacket_message (unpack_bytes request)]
  exact listRequest_inside flag loads inside entry short

theorem processPacket_undefined (flag : request.flag = 12) {index : Int}
    (requested : requestedIndex request = some index)
    (inside : ¬(index < 0 ∨ index > server.numOpen)) (large : ¬Fits server index) :
    processPacket fails fd (some request.bytes) ⟨server, []⟩ = none := by
  obtain ⟨value, loads, rfl⟩ := requestedIndex_eq_some requested
  rw [processPacket_message (unpack_bytes request)]
  cases entry : server.client (asInt value).toNat with
  | none => exact listRequest_null flag loads inside entry
  | some client =>
      apply listRequest_long flag loads inside entry
      by_contra short
      exact large ⟨client, entry, by omega⟩

/-- A request is answered as it should be exactly when the text holds an index other than
`num_open` whose handle fits. -/
theorem listing_answered_iff (fails : Int → Bool) (fd : Int) (server : Server)
    (request : Message) (flag : request.flag = 12) :
    Answered fails fd server request ↔ Listable server request := by
  constructor
  · rintro ⟨index, answer, result, next, requested, right, answers⟩
    refine ⟨index, requested, ?_⟩
    by_cases outside : index < 0 ∨ index > server.numOpen
    · exact ⟨by omega, by omega⟩
    by_cases fits : Fits server index
    · refine ⟨?_, fun _ _ => fits⟩
      obtain ⟨client, entry, short⟩ := fits
      rintro last
      -- The entry behind the table is copied where the answer should be that there is none.
      rw [processPacket_inside flag requested outside entry short, respond_apply] at answers
      simp only [List.nil_append, Option.some.injEq, Prod.mk.injEq, Machine.mk.injEq,
        List.cons.injEq, and_true, true_and] at answers
      rw [RightAnswer, if_neg (by omega)] at right
      have flags := response_flag answers.2.2
      rw [right] at flags
      exact absurd (show (13 : UInt8) = 14 from flags) (by decide)
    · rw [processPacket_undefined flag requested outside fits] at answers
      cases answers
  · rintro ⟨index, requested, other, fits⟩
    by_cases outside : index < 0 ∨ index > server.numOpen
    · refine ⟨index, noHandleAnswer, _, _, requested, ?_,
        (processPacket_outside flag requested outside).trans (respond_apply _ _ _ _)⟩
      rw [RightAnswer, if_neg (by omega)]
    · obtain ⟨client, entry, short⟩ := fits (by omega) (by omega)
      refine ⟨index, handleAnswer client, _, _, requested, ?_,
        (processPacket_inside flag requested outside entry short).trans (respond_apply _ _ _ _)⟩
      rw [RightAnswer, if_pos (by omega)]
      exact ⟨client, entry, rfl⟩

end

def churnEvents : List Event := [.accept 4, .accept 5, .packet 5 []]

def indexRequest (index : Int) : Message := { Message.new with flag := 12, text := intText index }

section

attribute [local instance] roundedBlocks

theorem listing_answered_first : ∃ service,
    Transition.run (Service.step reliable) churnEvents (Service.start 3) = some service ∧
      Answered reliable 4 service.server (indexRequest 0) := by
  have served : (Transition.run (Service.step reliable) churnEvents (Service.start 3)).map
      (fun service => (service.server.numOpen, service.server.client 0)) =
        some (1, some ⟨1, [0]⟩) := by
    decide +kernel
  obtain ⟨service, executed, same⟩ := Option.map_eq_some_iff.mp served
  obtain ⟨numOpen, client⟩ := Prod.mk.inj same
  refine ⟨service, executed, (listing_answered_iff _ _ _ _ rfl).mpr ⟨0, by decide, ?_, ?_⟩⟩
  · rw [numOpen]
    decide
  · intro _ _
    exact ⟨_, client, by decide⟩

/-- The entry that has become `num_open` is NULL, and is read as a string. -/
theorem listing_unanswered : ∃ service,
    Transition.Reach (· = Service.start 3) (Service.step reliable)
      (fun service event _ => Allowed service event) service ∧
    processPacket reliable 4 (some (indexRequest 1).bytes) ⟨service.server, []⟩ = none ∧
    ¬Answered reliable 4 service.server (indexRequest 1) := by
  have served : (Transition.run (Service.step reliable) churnEvents (Service.start 3)).map
      (fun service => (service.server.numOpen, service.server.client 1)) = some (1, none) := by
    decide +kernel
  have allowed : Transition.Permitted (Service.step reliable)
      (fun service event _ => Allowed service event)
      churnEvents (Service.start 3) := by
    decide +kernel
  obtain ⟨service, executed, same⟩ := Option.map_eq_some_iff.mp served
  obtain ⟨numOpen, client⟩ := Prod.mk.inj same
  have requested : requestedIndex (indexRequest 1) = some 1 := by decide
  have undefined : processPacket reliable 4 (some (indexRequest 1).bytes) ⟨service.server, []⟩ =
      none := by
    refine processPacket_undefined rfl requested ?_ ?_
    · rw [numOpen]
      decide
    · rintro ⟨buffer, entry, _⟩
      rw [show Int.toNat 1 = 1 from rfl, client] at entry
      cases entry
  refine ⟨service, .run churnEvents (.start rfl) executed allowed, undefined, ?_⟩
  rintro ⟨index, answer, result, next, _, _, answers⟩
  rw [undefined] at answers
  cases answers

end

end Chat
