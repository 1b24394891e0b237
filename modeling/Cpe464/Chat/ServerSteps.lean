import Cpe464.Chat.TableSteps

/-!
What `process_packet` does on the entries of the tables, with any result of `send`: the
calls of `send` that a message leads to, and the entries that are left.
-/

namespace Chat

open Bytes Effects SwapRemove

def reliable (_ : Int) : Bool := false

/-- The action returns, with these further calls of `send`, and leaves this server. -/
def Returns (action : Handler Unit) (machine : Machine) (server : Server)
    (sends : List (Int × List UInt8)) : Prop :=
  action machine = some (.ok (), ⟨server, machine.sends ++ sends⟩)

def attempted (fails : Int → Bool) : List (Int × List UInt8) → List (Int × List UInt8)
  | [] => []
  | sent :: rest => if fails sent.1 then [sent] else sent :: attempted fails rest

/-- The action calls `send` in this order until one fails, and leaves this server. -/
def Attempts (fails : Int → Bool) (action : Handler Unit) (machine : Machine) (server : Server)
    (sends : List (Int × List UInt8)) : Prop :=
  action machine = some (if sends.any fun sent => fails sent.1 then .error .sendEx else .ok (),
    ⟨server, machine.sends ++ attempted fails sends⟩)

theorem attempted_append_works {fails : Int → Bool} {sends : List (Int × List UInt8)}
    (works : ∀ sent ∈ sends, fails sent.1 = false) (later : List (Int × List UInt8)) :
    attempted fails (sends ++ later) = sends ++ attempted fails later := by
  induction sends with
  | nil => rfl
  | cons sent rest ih =>
      have first := works sent List.mem_cons_self
      rw [List.cons_append, attempted, first,
        ih (fun other member => works other (List.mem_cons_of_mem _ member))]
      rfl

theorem attempted_eq {fails : Int → Bool} {sends : List (Int × List UInt8)}
    (works : ∀ sent ∈ sends, fails sent.1 = false) : attempted fails sends = sends := by
  have same := attempted_append_works works []
  rwa [List.append_nil, attempted, List.append_nil] at same

theorem attempted_append_fails {fails : Int → Bool} {sends : List (Int × List UInt8)}
    (failing : (sends.any fun sent => fails sent.1) = true) (later : List (Int × List UInt8)) :
    attempted fails (sends ++ later) = attempted fails sends := by
  induction sends with
  | nil => cases failing
  | cons sent rest ih =>
      rw [List.cons_append, attempted, attempted]
      by_cases first : fails sent.1 = true
      · rw [if_pos first, if_pos first]
      · rw [if_neg first, if_neg first]
        rw [List.any_cons, Bool.eq_false_iff.mpr first, Bool.false_or] at failing
        rw [ih failing]

theorem attempted_singleton (fails : Int → Bool) (sent : Int × List UInt8) :
    attempted fails [sent] = [sent] := by
  rw [attempted, attempted]
  split <;> rfl

section

variable {fails : Int → Bool} {action : Handler Unit} {machine : Machine} {server : Server}
  {sends : List (Int × List UInt8)}

theorem Attempts.returns (attempts : Attempts fails action machine server sends)
    (works : ∀ sent ∈ sends, fails sent.1 = false) : Returns action machine server sends := by
  have none : (sends.any fun sent => fails sent.1) = false := by
    rw [List.any_eq_false]
    intro sent member
    rw [works sent member]
    exact Bool.false_ne_true
  rw [Attempts, attempted_eq works, none] at attempts
  exact attempts

theorem Attempts.andThen {rest : Handler Unit} {later : List (Int × List UInt8)}
    (attempts : Attempts fails action machine server sends)
    (continues : Attempts fails rest ⟨server, machine.sends ++ sends⟩ server later) :
    Attempts fails (do action; rest) machine server (sends ++ later) := by
  by_cases failing : (sends.any fun sent => fails sent.1) = true
  · rw [Attempts, if_pos failing] at attempts
    rw [Attempts, List.any_append, failing, Bool.true_or, if_pos rfl, attempted_append_fails failing]
    exact bind_error attempts _
  · have works : ∀ sent ∈ sends, fails sent.1 = false := by simpa using failing
    rw [Attempts, bind_ok (attempts.returns works), continues, List.any_append,
      Bool.eq_false_iff.mpr failing, Bool.false_or, attempted_append_works works, List.append_assoc]

theorem Attempts.rethrown (attempts : Attempts fails action machine server sends)
    {handler : Exception → Handler Unit} (rethrows : handler .sendEx = throw .sendEx) :
    Attempts fails (tryCatch action handler) machine server sends := by
  rw [Attempts] at attempts ⊢
  split at attempts
  · rename_i failing
    rw [if_pos failing, tryCatch_error attempts, rethrows]
    rfl
  · rename_i working
    rw [if_neg working, tryCatch_ok attempts]

theorem Attempts.throws (attempts : Attempts fails action machine server sends)
    {sent : Int × List UInt8} (member : sent ∈ sends) (failing : fails sent.1 = true) :
    action machine = some (.error .sendEx, ⟨server, machine.sends ++ attempted fails sends⟩) := by
  have some : (sends.any fun sent => fails sent.1) = true :=
    List.any_eq_true.mpr ⟨sent, member, failing⟩
  rw [Attempts, some] at attempts
  exact attempts

end

def Server.numbered (server : Server) : Server :=
  { server with sequenceNumber := server.sequenceNumber + 1 }

def Server.learned (server : Server) (index : Nat) (handle : List UInt8) : Server :=
  { server with clients := server.clients.set index (some ⟨handle.length + 1, handle ++ [0]⟩) }

theorem Represents.numbered {server : Server} {entries : List Entry}
    (represents : Represents server entries) : Represents server.numbered entries := by
  exact represents.renumber _

def Server.response (server : Server) (message : Message) : List UInt8 :=
  { message with sequenceNumber := server.sequenceNumber }.bytes

theorem send_attempts (fails : Int → Bool) (fd : Int) (bytes : List UInt8) (machine : Machine) :
    Attempts fails (send fails fd bytes) machine machine.server [(fd, bytes)] := by
  rw [Attempts, attempted_singleton, List.any_cons, List.any_nil, Bool.or_false]
  simp only [send, bind, modify_apply, choose_apply]
  split <;> rfl

theorem respond_apply (fails : Int → Bool) (fd : Int) (message : Message) (machine : Machine) :
    respond fails fd message machine =
      some (if fails fd = true then .error .sendEx else .ok (), ⟨machine.server.numbered,
        machine.sends ++ [(fd, machine.server.response message)]⟩) := by
  have numbers : nextNumber machine = some (.ok machine.server.sequenceNumber,
      ⟨machine.server.numbered, machine.sends⟩) := rfl
  rw [respond, bind_ok numbers]
  simp only [send, bind, modify_apply, choose_apply]
  split <;> rfl

theorem respond_attempts (fails : Int → Bool) (fd : Int) (message : Message) (machine : Machine) :
    Attempts fails (respond fails fd message) machine machine.server.numbered
      [(fd, machine.server.response message)] := by
  rw [Attempts, attempted_singleton, List.any_cons, List.any_nil, Bool.or_false]
  exact respond_apply fails fd message machine

theorem Returns.andThen {first : Handler Unit} {machine : Machine} {middle next : Server}
    {sends later : List (Int × List UInt8)} (returns : Returns first machine middle sends)
    {rest : Handler Unit} (continues : Returns rest ⟨middle, machine.sends ++ sends⟩ next later) :
    Returns (do first; rest) machine next (sends ++ later) := by
  rw [Returns, bind_ok returns, continues, List.append_assoc]

/-! A new connection. -/

def Server.accepting (server : Server) (fd : Int) : Server :=
  { resize server with
    openSockets := (resize server).openSockets.set (resize server).numOpen fd
    clients := (resize server).clients.set (resize server).numOpen (some ⟨1, [0]⟩)
    highestFd := max (resize server).highestFd fd
    numOpen := (resize server).numOpen + 1
    numClients := (resize server).numClients + 1 }

theorem answer_eq {server : Server} {sends : List (Int × List UInt8)} {fd : Int}
    (valid : fd ≠ -1) (inside : (resize server).numOpen < (resize server).capacity) :
    answer fd ⟨server, sends⟩ = some (.ok (), ⟨server.accepting fd, sends⟩) := by
  simp only [answer, bind, modify_apply, get_apply, ↓choose_apply, if_pos inside, if_neg valid,
    Server.accepting]

theorem answer_accepting {fd : Int} {machine next : Machine}
    (ends : answer fd machine = some (.ok (), next)) :
    fd ≠ -1 ∧ next = ⟨machine.server.accepting fd, machine.sends⟩ := by
  simp only [answer, bind, modify_apply, get_apply, ↓choose_apply, throw_apply,
    defined_none] at ends
  split at ends
  · split at ends
    · cases ends
    · rename_i valid
      cases ends
      exact ⟨valid, rfl⟩
  · cases ends

/-! Lookups and registration. -/

section

variable {machine : Machine} {entries : List Entry}
  (represents : Represents machine.server entries)

include represents

theorem Represents.learnHandle_refuses (fd : Int) (first : UInt8) (rest : List UInt8)
    (refused : cString (first :: rest) = [] ∨
      ∃ entry ∈ entries, entry.2 = cString (first :: rest)) :
    learnHandle fd (first :: rest) machine = some (.error .handleEx, machine) := by
  by_cases zero : first = 0
  · simp only [learnHandle, bind, get_apply, List.head?_cons, defined_some, ↓choose_apply,
      if_pos zero, throw_apply]
  · have taken : (entries.any fun entry => entry.2 == cString (first :: rest)) = true := by
      rcases refused with empty | ⟨entry, member, same⟩
      · exact absurd ((cString_eq_nil_iff first rest).mp empty) zero
      · exact List.any_eq_true.mpr ⟨entry, member, beq_iff_eq.mpr same⟩
    have found := represents.handleExists_eq (first :: rest)
    rw [taken] at found
    simp only [learnHandle, bind, get_apply, List.head?_cons, defined_some, ↓choose_apply,
      if_neg zero, found, if_true, throw_apply]

theorem Represents.initialPacket_refused [Allocator] (fails : Int → Bool) (fd : Int)
    (message : Message)
    (first : UInt8) (rest : List UInt8) (handle : message.fromHandle.bytes = first :: rest)
    (refused : cString (first :: rest) = [] ∨
      ∃ entry ∈ entries, entry.2 = cString (first :: rest)) :
    initialPacket fails fd message machine =
      badHandleResponse fails fd message.fromHandle machine := by
  have refuses := represents.learnHandle_refuses fd first rest refused
  rw [initialPacket, handle, tryCatch_error (bind_error refuses _)]
  rfl

theorem Represents.confirmHandle_attempts (fails : Int → Bool) (handle : Handle) (entry : Entry)
    (found : (entries.find? fun entry => entry.2 == cString handle.bytes) = some entry) :
    Attempts fails (confirmHandle fails handle) machine machine.server.numbered
      [(entry.1, machine.server.response { Message.new with flag := 2, toHandle := handle })] := by
  have finds : findByHandle handle.bytes ⟨machine.server.numbered, machine.sends⟩ =
      some (.ok entry.1, ⟨machine.server.numbered, machine.sends⟩) :=
    represents.numbered.findByHandle_found handle.bytes entry found
  have numbers : nextNumber machine = some (.ok machine.server.sequenceNumber,
      ⟨machine.server.numbered, machine.sends⟩) := rfl
  rw [Attempts, confirmHandle, bind_ok numbers, bind_ok finds]
  exact send_attempts fails entry.1 _ ⟨machine.server.numbered, machine.sends⟩

end

section

variable {machine : Machine} {entries : List Entry}
  (represents : Represents machine.server entries) (nodup : (entries.map Prod.fst).Nodup)
  {index : Nat} {fd : Int} {old : List UInt8} (found : entries[index]? = some (fd, old))

include represents nodup found

theorem Represents.learnHandle_registers (first : UInt8) (rest : List UInt8)
    (named : cString (first :: rest) ≠ [])
    (free : ∀ entry ∈ entries, entry.2 ≠ cString (first :: rest)) :
    Returns (learnHandle fd (first :: rest)) machine
      (machine.server.learned index (first :: rest)) [] := by
  have nonzero : first ≠ 0 := fun zero => named ((cString_eq_nil_iff first rest).mpr zero)
  have unused : (entries.any fun entry => entry.2 == cString (first :: rest)) = false := by
    rw [List.any_eq_false]
    intro entry member
    simpa using free entry member
  have missing := represents.handleExists_eq (first :: rest)
  rw [unused] at missing
  have position := lastIndex_eq fd (entries.map Prod.fst) 0 0 index nodup
    (by rw [List.getElem?_map, found, Option.map_some])
  rw [← represents.sockets_eq, Nat.zero_add] at position
  simp only [Returns, learnHandle, bind, get_apply, List.head?_cons, defined_some, ↓choose_apply,
    if_neg nonzero, missing, Bool.false_eq_true, if_false, modify_apply, position,
    List.append_nil, Server.learned]

theorem Represents.initialPacket_registers [Allocator] (fails : Int → Bool) (message : Message)
    (first : UInt8) (rest : List UInt8) (handle : message.fromHandle.bytes = first :: rest)
    (named : cString (first :: rest) ≠ [])
    (free : ∀ entry ∈ entries, entry.2 ≠ cString (first :: rest)) :
    Returns (initialPacket fails fd message) machine
      (machine.server.learned index (first :: rest)).numbered
      [(fd, machine.server.response { Message.new with
        flag := 2, toHandle := message.fromHandle })] := by
  have learns := represents.learnHandle_registers nodup found first rest named free
  have after := represents.register index fd old (first :: rest) found
  obtain ⟨inside, same⟩ := List.getElem?_eq_some_iff.mp found
  have finds : ((entries.set index (fd, cString (first :: rest))).find? fun entry =>
      entry.2 == cString message.fromHandle.bytes) = some (fd, cString (first :: rest)) := by
    rw [handle]
    refine List.find?_eq_some_iff_getElem.mpr ⟨beq_iff_eq.mpr rfl, index,
      by rwa [List.length_set], List.getElem_set_self _, ?_⟩
    intro earlier before
    rw [List.getElem_set_ne (by omega)]
    simpa using free _ (List.getElem_mem _)
  have confirms : Attempts fails (confirmHandle fails message.fromHandle)
      ⟨machine.server.learned index (first :: rest), machine.sends ++ []⟩ _ _ :=
    after.confirmHandle_attempts fails message.fromHandle _ finds
  rw [Attempts, attempted_singleton, List.append_nil] at confirms
  rw [Returns, initialPacket, handle]
  rw [Returns, List.append_nil] at learns
  by_cases failing : fails fd = true
  · have throws := (bind_ok learns fun _ => confirmHandle fails message.fromHandle).trans confirms
    rw [List.any_cons, failing, Bool.true_or, if_pos rfl] at throws
    rw [tryCatch_error throws]
    rfl
  · have sends := (bind_ok learns fun _ => confirmHandle fails message.fromHandle).trans confirms
    rw [List.any_cons, List.any_nil, Bool.or_false, if_neg failing] at sends
    exact tryCatch_ok sends _

variable [Allocator]

theorem Represents.closeConnection_undefined (stuck : ¬machine.server.Closable fd) :
    closeConnection fd machine = none := by
  rw [represents.closable_iff nodup found] at stuck
  have undefined := represents.remove_undefined index stuck
  have position := findIdx?_socket fd _ index nodup
    (by rw [List.getElem?_map, found, Option.map_some])
  rw [← represents.sockets_eq] at position
  simp only [closeConnection, bind, get_apply, position, defined_some, undefined, defined_none]

theorem Represents.closing_undefined (stuck : ¬machine.server.Closable fd) (fails : Int → Bool)
    (message : Message) (next : Server) (sends : List (Int × List UInt8)) :
    ¬Returns (do respond fails fd message; closeConnection fd) machine next sends := by
  have responds := respond_apply fails fd message machine
  rw [Returns]
  intro returns
  by_cases failing : fails fd = true
  · rw [if_pos failing] at responds
    rw [bind_error responds] at returns
    cases returns
  · rw [if_neg failing] at responds
    have after : Represents (Machine.mk machine.server.numbered
        (machine.sends ++ [(fd, machine.server.response message)])).server entries :=
      represents.numbered
    rw [bind_ok responds, after.closeConnection_undefined nodup found stuck] at returns
    cases returns

variable (closable : machine.server.Closable fd)

include closable

theorem Represents.closeConnection_returns :
    ∃ next, Returns (closeConnection fd) machine next [] ∧
      Represents next (swapRemove entries index) ∧ next.capacity = machine.server.capacity := by
  rw [represents.closable_iff nodup found] at closable
  obtain ⟨inside, _⟩ := List.getElem?_eq_some_iff.mp found
  obtain ⟨next, removes, after, _, capacity⟩ := represents.remove index inside closable
  have position := findIdx?_socket fd _ index nodup
    (by rw [List.getElem?_map, found, Option.map_some])
  rw [← represents.sockets_eq] at position
  refine ⟨next, ?_, after, capacity⟩
  simp only [Returns, closeConnection, bind, get_apply, position, defined_some, removes,
    modify_apply, List.append_nil]

theorem Represents.closing_returns (message : Message) :
    ∃ next, (∀ fails : Int → Bool, fails fd = false →
        Returns (do respond fails fd message; closeConnection fd) machine next
          [(fd, machine.server.response message)]) ∧
      Represents next (swapRemove entries index) ∧ next.capacity = machine.server.capacity := by
  have after : Represents (Machine.mk machine.server.numbered
      (machine.sends ++ [(fd, machine.server.response message)])).server entries :=
    represents.numbered
  obtain ⟨next, closes, left, capacity⟩ := after.closeConnection_returns nodup found closable
  refine ⟨next, ?_, left, capacity⟩
  intro fails works
  have responds := (respond_attempts fails fd message machine).returns (by simpa using works)
  exact responds.andThen closes

theorem Represents.initialPacket_refuses (message : Message) (first : UInt8)
    (rest : List UInt8) (handle : message.fromHandle.bytes = first :: rest)
    (refused : cString (first :: rest) = [] ∨
      ∃ entry ∈ entries, entry.2 = cString (first :: rest)) :
    ∃ next, (∀ fails : Int → Bool, fails fd = false →
        Returns (initialPacket fails fd message) machine next
          [(fd, machine.server.response { Message.new with
            flag := 3, toHandle := message.fromHandle })]) ∧
      Represents next (swapRemove entries index) ∧ next.capacity = machine.server.capacity := by
  obtain ⟨next, closes, left, capacity⟩ := represents.closing_returns nodup found closable
    { Message.new with flag := 3, toHandle := message.fromHandle }
  refine ⟨next, ?_, left, capacity⟩
  intro fails works
  rw [Returns, represents.initialPacket_refused fails fd message first rest handle refused]
  exact closes fails works

theorem Represents.exitResponse_returns :
    ∃ next, (∀ fails : Int → Bool, fails fd = false →
        Returns (exitResponse fails fd) machine next
          [(fd, machine.server.response { Message.new with flag := 9 })]) ∧
      Represents next (swapRemove entries index) ∧ next.capacity = machine.server.capacity := by
  exact represents.closing_returns nodup found closable { Message.new with flag := 9 }

end

theorem closing_throws [Allocator] {fails : Int → Bool} {fd : Int} (failing : fails fd = true)
    (message : Message) (machine : Machine) :
    ∃ made, (do respond fails fd message; closeConnection fd : Handler Unit) machine =
      some (.error .sendEx, made) := by
  have throws := (respond_attempts fails fd message machine).throws (List.mem_singleton_self _)
    failing
  exact ⟨_, bind_error throws _⟩

theorem initialPacket_nameless [Allocator] {fails : Int → Bool} {fd : Int} {machine : Machine}
    {message : Message}
    (nameless : message.fromHandle.bytes = []) :
    initialPacket fails fd message machine = none := by
  have learns : learnHandle fd [] machine = none := rfl
  simp only [initialPacket, nameless, tryCatch, tryCatchThe, MonadExceptOf.tryCatch, bind, learns]

/-! Messages and listings. -/

theorem Represents.broadcastFrom_attempts {machine : Machine} {entries : List Entry}
    (represents : Represents machine.server entries) (fails : Int → Bool)
    (sender bytes : List UInt8) (count i : Nat) (range : i + count = entries.length) :
    Attempts fails (broadcastFrom fails sender bytes count i) machine machine.server
      (((entries.drop i).filter fun entry => entry.2 ≠ sender).map fun entry =>
        (entry.1, bytes)) := by
  induction count generalizing machine i with
  | zero =>
      rw [List.drop_eq_nil_of_le (by omega)]
      simp [Attempts, attempted, broadcastFrom]
  | succ count ih =>
      have inside : i < entries.length := by omega
      have found := List.getElem?_eq_getElem inside
      have socket := represents.socket i entries[i].1 entries[i].2 found
      obtain ⟨buffer, client, _, string⟩ := represents.client i entries[i].1 entries[i].2 found
      rw [List.drop_eq_getElem_cons inside]
      by_cases same : entries[i].2 = sender
      · rw [List.filter_cons_of_neg (by simpa using same)]
        have rest := ih represents (i + 1) (by omega)
        simpa only [Attempts, broadcastFrom, bind, get_apply, client, defined_some, ↓choose_apply,
          string, if_pos same] using rest
      · rw [List.filter_cons_of_pos (by simpa using same), List.map_cons]
        have after : Represents (Machine.mk machine.server
            (machine.sends ++ [(entries[i].1, bytes)])).server entries := represents
        have both := (send_attempts fails entries[i].1 bytes machine).andThen
          (ih after (i + 1) (by omega))
        simpa only [Attempts, broadcastFrom, bind, get_apply, client, defined_some, ↓choose_apply,
          string, if_neg same, socket, List.singleton_append] using both

def routes (server : Server) (entries : List Entry) (fd : Int) (message : Message)
    (bytes : List UInt8) : List (Int × List UInt8) :=
  if message.toHandle.bytes.length = 0 then
    (entries.filter fun entry => entry.2 ≠ cString message.fromHandle.bytes).map fun entry =>
      (entry.1, bytes)
  else match entries.find? fun entry => entry.2 == cString message.toHandle.bytes with
  | some entry => [(entry.1, bytes)]
  | none => [(fd, server.response { Message.new with flag := 7, toHandle := message.toHandle })]

theorem Represents.messagePacket_attempts {machine : Machine} {entries : List Entry}
    (represents : Represents machine.server entries) (fd : Int) (message : Message)
    (bytes : List UInt8) :
    ∃ next, (∀ fails, Attempts fails (messagePacket fails fd message bytes) machine next
        (routes machine.server entries fd message bytes)) ∧
      (next = machine.server ∨ next = machine.server.numbered) := by
  unfold routes
  by_cases toAll : message.toHandle.bytes.length = 0
  · refine ⟨machine.server, ?_, .inl rfl⟩
    intro fails
    have sends := represents.broadcastFrom_attempts fails (cString message.fromHandle.bytes) bytes
      machine.server.numOpen 0 (by rw [represents.numOpen_eq, Nat.zero_add])
    rw [if_pos toAll, messagePacket, if_pos toAll]
    exact sends.rethrown rfl
  · rw [if_neg toAll]
    cases found : entries.find? fun entry => entry.2 == cString message.toHandle.bytes with
    | some entry =>
        have finds := represents.findByHandle_found message.toHandle.bytes entry found
        refine ⟨machine.server, ?_, .inl rfl⟩
        intro fails
        rw [messagePacket, if_neg toAll]
        have sends : Attempts fails (do
            let route ← findByHandle message.toHandle.bytes
            send fails route bytes) machine machine.server [(entry.1, bytes)] := by
          rw [Attempts, bind_ok finds]
          exact send_attempts fails entry.1 bytes machine
        exact sends.rethrown rfl
    | none =>
        have finds := represents.findByHandle_unknown message.toHandle.bytes (by
          intro entry member
          simpa using List.find?_eq_none.mp found entry member)
        refine ⟨machine.server.numbered, ?_, .inr rfl⟩
        intro fails
        rw [Attempts, messagePacket, if_neg toAll, tryCatch_error (bind_error finds _)]
        exact respond_attempts fails fd _ machine

theorem Represents.messagePacket_returns {machine : Machine} {entries : List Entry}
    (represents : Represents machine.server entries) (fd : Int) (message : Message)
    (bytes : List UInt8) :
    ∃ next, Returns (messagePacket reliable fd message bytes) machine next
        (routes machine.server entries fd message bytes) ∧
      Represents next entries ∧ next.capacity = machine.server.capacity := by
  obtain ⟨next, attempts, rfl | rfl⟩ := represents.messagePacket_attempts fd message bytes
  · exact ⟨_, (attempts reliable).returns (fun _ _ => rfl), represents, rfl⟩
  · exact ⟨_, (attempts reliable).returns (fun _ _ => rfl), represents.numbered, rfl⟩

theorem processPacket_message [Allocator] {received : List UInt8} {message : Message}
    (unpacks : unpack received = some message) (fails : Int → Bool) (fd : Int)
    (machine : Machine) : processPacket fails fd (some received) machine =
      handleMessage fails fd message received machine := by
  cases received with
  | nil => cases unpacks
  | cons first rest =>
      simp only [processPacket, bind, unpacks, defined_some]

/-! Requests and their answers. -/

def isRequest (message : Message) : Bool :=
  message.flag = 8 || message.flag = 10 || message.flag = 12

def AnswersHandle (reply : Message) : Prop :=
  (reply.flag = 13 ∧ ∃ length, reply.text.head? = some length ∧
    length.toNat < reply.text.length) ∨ reply.flag = 14

def Answers (request reply : Message) : Prop :=
  (request.flag = 8 ∧ reply.flag = 9) ∨
    (request.flag = 10 ∧ reply.flag = 11 ∧ ∃ value, loadInt reply.text = some value) ∨
    (request.flag = 12 ∧ AnswersHandle reply)

theorem Answers.listLength {request reply : Message} (answers : Answers request reply)
    (flag : request.flag = 10) : reply.flag = 11 ∧ ∃ value, loadInt reply.text = some value := by
  rcases answers with ⟨other, _⟩ | ⟨_, answer⟩ | ⟨other, _⟩
  · exact absurd (flag.symm.trans other) (by decide)
  · exact answer
  · exact absurd (flag.symm.trans other) (by decide)

theorem Answers.handle {request reply : Message} (answers : Answers request reply)
    (flag : request.flag = 12) : AnswersHandle reply := by
  rcases answers with ⟨other, _⟩ | ⟨other, _⟩ | ⟨_, answer⟩
  · exact absurd (flag.symm.trans other) (by decide)
  · exact absurd (flag.symm.trans other) (by decide)
  · exact answer

theorem Answers.exit {request reply : Message} (answers : Answers request reply)
    (flag : request.flag = 8) : reply.flag = 9 := by
  rcases answers with ⟨_, answer⟩ | ⟨other, _⟩ | ⟨other, _⟩
  · exact answer
  · exact absurd (flag.symm.trans other) (by decide)
  · exact absurd (flag.symm.trans other) (by decide)

/-! Listings, with any result of `send`. -/

def handleAnswer (client : HandleBuffer) : Message :=
  { Message.new with
    flag := 13
    fromHandle := serverHandle
    text := UInt8.ofNat client.string.length :: client.string }

def noHandleAnswer : Message := { Message.new with flag := 14 }

section

variable [Allocator] {fails : Int → Bool} {fd : Int} {request : Message} {bytes : List UInt8}
  {machine : Machine} {value : UInt32} (flag : request.flag = 12)

include flag

theorem listRequest_eq : handleMessage fails fd request bytes =
    tryCatch (handleRequestResponse fails fd request) fun exception =>
      if exception = .listEx then badHandleRequestResponse fails fd else throw exception := by
  simp only [handleMessage, dispatch, flag]
  rfl

theorem listRequest_short (short : loadInt request.text = none) :
    handleMessage fails fd request bytes machine = none := by
  rw [listRequest_eq flag]
  simp only [tryCatch, tryCatchThe, MonadExceptOf.tryCatch, handleRequestResponse, bind, get_apply,
    short, defined_none]

theorem listRequest_outside (loads : loadInt request.text = some value)
    (outside : asInt value < 0 ∨ asInt value > machine.server.numOpen) :
    handleMessage fails fd request bytes machine =
      respond fails fd noHandleAnswer machine := by
  rw [listRequest_eq flag]
  simp only [tryCatch, tryCatchThe, MonadExceptOf.tryCatch, handleRequestResponse, bind, get_apply,
    loads, defined_some, ↓choose_apply, if_pos outside, throw_apply, if_true]
  rfl

theorem listRequest_null (loads : loadInt request.text = some value)
    (inside : ¬(asInt value < 0 ∨ asInt value > machine.server.numOpen))
    (null : machine.server.client (asInt value).toNat = none) :
    handleMessage fails fd request bytes machine = none := by
  rw [listRequest_eq flag]
  simp only [tryCatch, tryCatchThe, MonadExceptOf.tryCatch, handleRequestResponse, bind, get_apply,
    loads, defined_some, ↓choose_apply, if_neg inside, null, defined_none]

theorem listRequest_long {client : HandleBuffer} (loads : loadInt request.text = some value)
    (inside : ¬(asInt value < 0 ∨ asInt value > machine.server.numOpen))
    (entry : machine.server.client (asInt value).toNat = some client)
    (long : maxHandleSize < client.string.length) :
    handleMessage fails fd request bytes machine = none := by
  rw [listRequest_eq flag]
  simp only [tryCatch, tryCatchThe, MonadExceptOf.tryCatch, handleRequestResponse, bind, get_apply,
    loads, defined_some, ↓choose_apply, if_neg inside, entry, if_neg (Nat.not_le.mpr long),
    defined_none]

theorem listRequest_inside {client : HandleBuffer} (loads : loadInt request.text = some value)
    (inside : ¬(asInt value < 0 ∨ asInt value > machine.server.numOpen))
    (entry : machine.server.client (asInt value).toNat = some client)
    (short : client.string.length ≤ maxHandleSize) :
    handleMessage fails fd request bytes machine =
      respond fails fd (handleAnswer client) machine := by
  have answers : handleRequestResponse fails fd request machine =
      respond fails fd (handleAnswer client) machine := by
    simp only [handleRequestResponse, bind, get_apply, loads, defined_some, ↓choose_apply,
      if_neg inside, entry, if_pos short]
    rfl
  rw [listRequest_eq flag]
  have responds := respond_apply fails fd (handleAnswer client) machine
  by_cases failing : fails fd = true
  · rw [if_pos failing] at responds
    rw [tryCatch_error (answers.trans responds), responds]
    rfl
  · rw [if_neg failing] at responds
    rw [tryCatch_ok (answers.trans responds), responds]

end

def AnswersListing [Allocator] (machine : Machine) (fd : Int) (request : Message)
    (bytes : List UInt8) : Prop :=
  ∃ answer : Message, AnswersHandle answer ∧ ∀ fails,
    handleMessage fails fd request bytes machine = respond fails fd answer machine

theorem listRequest_answers [Allocator] {machine : Machine} {request : Message} {value : UInt32}
    (flag : request.flag = 12) (loads : loadInt request.text = some value)
    (fits : ¬(asInt value < 0 ∨ asInt value > machine.server.numOpen) →
      ∃ client, machine.server.client (asInt value).toNat = some client ∧
        client.string.length ≤ maxHandleSize) (fd : Int) (bytes : List UInt8) :
    AnswersListing machine fd request bytes := by
  by_cases outside : asInt value < 0 ∨ asInt value > machine.server.numOpen
  · exact ⟨noHandleAnswer, Or.inr rfl, fun _ => listRequest_outside flag loads outside⟩
  · obtain ⟨client, entry, short⟩ := fits outside
    refine ⟨handleAnswer client, Or.inl ⟨rfl, _, rfl, ?_⟩,
      fun _ => listRequest_inside flag loads outside entry short⟩
    rw [UInt8.toNat_ofNat', handleAnswer, List.length_cons]
    omega

theorem Represents.listRequest_returns [Allocator] {machine : Machine} {entries : List Entry}
    (represents : Represents machine.server entries)
    (short : ∀ entry ∈ entries, entry.2.length ≤ maxHandleSize) {request : Message}
    {value : UInt32} (flag : request.flag = 12) (loads : loadInt request.text = some value)
    (other : asInt value ≠ machine.server.numOpen) (fd : Int) (bytes : List UInt8) :
    AnswersListing machine fd request bytes := by
  apply listRequest_answers flag loads
  intro inside
  have openEq := represents.numOpen_eq
  have below : (asInt value).toNat < entries.length := by omega
  have found := List.getElem?_eq_getElem below
  obtain ⟨client, entry, _, string⟩ := represents.client _ entries[(asInt value).toNat].1
    entries[(asInt value).toNat].2 found
  exact ⟨client, entry, string ▸ short _ (List.mem_of_getElem? found)⟩

end Chat
