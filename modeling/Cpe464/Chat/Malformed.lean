import Cpe464.Chat.Listing

/-!
What the server does with any result of `recv`, also from a program that is not the client:
which bytes are handled inside their bounds, so that the other connections are served on.
-/

namespace Chat

open Bytes Effects SwapRemove Transition

structure Serving (server : Server) (entries : List Entry) : Prop where
  represents : Represents server entries
  nodup : (entries.map Prod.fst).Nodup

/-- The connection is taken for closed, or a message is obtained that lies inside the received
bytes; `process_packet` returns, and the other connections are served on. -/
def Handled [Allocator] (server : Server) (entries : List Entry) (fd : Int)
    (result : Option (List UInt8)) : Prop :=
  (result = some [] ∨
    ∃ bytes message, result = some bytes ∧ unpack bytes = some message ∧ message.bytes = bytes) ∧
  ∃ next sends after, Returns (processPacket reliable fd result) ⟨server, []⟩ next sends ∧
    Serving next after ∧ KeepsOthers fd entries after

def ListableText (server : Server) (text : List UInt8) : Prop :=
  ∃ value, loadInt text = some value ∧ asInt value ≠ server.numOpen ∧
    (0 ≤ asInt value → asInt value < server.numOpen → Fits server (asInt value))

/-- The end of the stream, or bytes that are long enough for the handles they announce, with a
handle in a registration and a text that can be looked up in a request for a handle. -/
def Harmless (server : Server) : Option (List UInt8) → Prop
  | none => False
  | some [] => True
  | some bytes => ∃ toLength fromLength, Framed bytes toLength fromLength ∧
      (bytes[4]? = some 1 → fromLength ≠ 0) ∧
      (bytes[4]? = some 12 →
        ListableText server (bytes.drop (7 + toLength.toNat + fromLength.toNat)))

theorem harmless_iff {server : Server} {bytes : List UInt8} {message : Message}
    (unpacks : unpack bytes = some message) :
    Harmless server (some bytes) ↔ (message.flag = 1 → 1 ≤ message.fromHandle.bytes.length) ∧
      (message.flag = 12 → ListableText server message.text) := by
  have framed := framed_unpack unpacks
  have packed := bytes_unpack unpacks
  have flag : bytes[4]? = some message.flag := by
    rw [← packed]
    rfl
  have text : bytes.drop (7 + message.toHandle.bytes.length + message.fromHandle.bytes.length) =
      message.text := by
    have layout : message.bytes = (htonl message.sequenceNumber ++ message.flag ::
        (message.toHandle.pack ++ message.fromHandle.pack)) ++ message.text := by
      simp [Message.bytes]
    rw [← packed, layout]
    apply List.drop_left'
    simp only [Handle.pack, List.length_append, List.length_cons, htonl_length]
    omega
  have nonzero (handle : Handle) :
      UInt8.ofNat handle.bytes.length ≠ 0 ↔ 1 ≤ handle.bytes.length := by
    rw [Ne, ← UInt8.toNat_inj, handle.length_toNat, UInt8.toNat_zero]
    omega
  have nonempty : bytes ≠ [] := by
    rintro rfl
    cases unpacks
  obtain ⟨first, rest, rfl⟩ := List.exists_cons_of_ne_nil nonempty
  simp only [Harmless, flag, Option.some.injEq]
  constructor
  · rintro ⟨toLength, fromLength, ⟨toRead, fromRead, _⟩, named, listed⟩
    obtain ⟨toKnown, fromKnown, _⟩ := framed
    obtain rfl : toLength = UInt8.ofNat message.toHandle.bytes.length :=
      Option.some.inj (toRead.symm.trans toKnown)
    obtain rfl : fromLength = UInt8.ofNat message.fromHandle.bytes.length :=
      Option.some.inj (fromRead.symm.trans fromKnown)
    rw [Handle.length_toNat, Handle.length_toNat, text] at listed
    exact ⟨fun one => (nonzero _).mp (named one), listed⟩
  · rintro ⟨named, listed⟩
    refine ⟨_, _, framed, fun one => (nonzero _).mpr (named one), ?_⟩
    rw [Handle.length_toNat, Handle.length_toNat, text]
    exact listed

section

variable [Allocator] {server : Server} {entries : List Entry} {fd : Int}
  {result : Option (List UInt8)}

theorem Serving.listable_of_defined (serving : Serving server entries) {fails : Int → Bool}
    {message : Message} (list : message.flag = 12) {bytes : List UInt8}
    (defined : handleMessage fails fd message bytes ⟨server, []⟩ ≠ none) :
    ListableText server message.text := by
  have openEq := serving.represents.numOpen_eq
  cases loads : loadInt message.text with
  | none => exact absurd (listRequest_short list loads) defined
  | some value =>
      refine ⟨value, loads, ?_, ?_⟩
      · intro last
        have vacant := serving.represents.vacant server.numOpen (by omega)
        refine absurd (listRequest_null list loads (by simp only; omega) ?_) defined
        rw [last, Int.toNat_natCast]
        exact vacant
      · intro lower upper
        have found := @List.getElem?_eq_getElem _ entries (asInt value).toNat (by omega)
        obtain ⟨client, entry, _⟩ := serving.represents.client _ _ _ found
        refine ⟨client, entry, ?_⟩
        by_contra long
        exact absurd (listRequest_long list loads (by simp only; omega) entry (by omega)) defined

theorem Serving.harmless_of_defined (serving : Serving server entries) {fails : Int → Bool}
    {message : Message} {bytes : List UInt8}
    (defined : handleMessage fails fd message bytes ⟨server, []⟩ ≠ none) :
    (message.flag = 1 → 1 ≤ message.fromHandle.bytes.length) ∧
      (message.flag = 12 → ListableText server message.text) := by
  refine ⟨?_, fun list => serving.listable_of_defined list defined⟩
  intro register
  by_contra nameless
  have empty : message.fromHandle.bytes = [] := by
    rw [← List.length_eq_zero_iff]
    omega
  have dispatched : handleMessage fails fd message bytes = initialPacket fails fd message := by
    simp only [handleMessage, dispatch, register]
    rfl
  rw [dispatched, initialPacket_nameless empty] at defined
  exact defined rfl

theorem Serving.detaches_of_returns (serving : Serving server entries)
    (opened : ∃ entry ∈ entries, entry.1 = fd) {fails : Int → Bool} {next : Server}
    {sends : List (Int × List UInt8)}
    (returns : Returns (processPacket fails fd result) ⟨server, []⟩ next sends) :
    Detaches server entries fd result := by
  have listed : fd ∈ server.openSockets.take server.numOpen := by
    rw [serving.represents.sockets_eq]
    exact List.mem_map.mpr opened
  have served := (serve_recv_iff fd result).mpr ⟨listed, sends, returns⟩
  exact @Represents.movable _ ⟨server, entries⟩ _ _ _ _ serving.represents serving.nodup (.refl _)
    served

theorem listRequest_listable {message : Message} (list : message.flag = 12)
    (listable : ListableText server message.text) (bytes : List UInt8) :
    AnswersListing ⟨server, []⟩ fd message bytes := by
  obtain ⟨value, loads, other, fits⟩ := listable
  apply listRequest_answers list loads
  intro inside
  simp only [not_or, not_lt] at inside
  exact fits (by omega) (by omega)

theorem Serving.handled_of_message (serving : Serving server entries)
    (opened : ∃ entry ∈ entries, entry.1 = fd) {bytes : List UInt8} {message : Message}
    (unpacks : unpack bytes = some message)
    (named : message.flag = 1 → 1 ≤ message.fromHandle.bytes.length)
    (listed : message.flag = 12 → ListableText server message.text)
    (detaches : Detaches server entries fd (some bytes)) :
    Handled server entries fd (some bytes) := by
  obtain ⟨⟨fd, old⟩, member, rfl⟩ := opened
  obtain ⟨index, found⟩ := List.mem_iff_getElem?.mp member
  have initial : Represents (Machine.mk server []).server entries := serving.represents
  obtain ⟨next, sends, after, left, changed, outcome⟩ :=
    initial.handleMessage_returns serving.nodup found message bytes named
      (fun departs => detaches bytes rfl (.inr ⟨message, unpacks, departs⟩))
      (fun list => listRequest_listable list (listed list) bytes)
  refine ⟨.inr ⟨bytes, message, rfl, unpacks, bytes_unpack unpacks⟩, next, sends, after, ?_,
    ⟨left, ?_⟩, ?_⟩
  · rw [Returns, processPacket_message unpacks]
    exact (outcome reliable).1 (tolerated_reliable entries fd message)
  · exact (changed.map Prod.fst).nodup_iff.mpr (nodup_afterMessage serving.nodup _ _)
  · intro entry other
    rw [changed.mem_iff]
    exact keepsOthers_afterMessage entry other

theorem Serving.handled_of_closed (serving : Serving server entries)
    (opened : ∃ entry ∈ entries, entry.1 = fd) (closable : server.Closable fd) :
    Handled server entries fd (some []) := by
  obtain ⟨⟨fd, old⟩, member, rfl⟩ := opened
  obtain ⟨index, found⟩ := List.mem_iff_getElem?.mp member
  obtain ⟨inside, _⟩ := List.getElem?_eq_some_iff.mp found
  have initial : Represents (Machine.mk server []).server entries := serving.represents
  obtain ⟨next, closes, left, _⟩ := initial.closeConnection_returns serving.nodup found closable
  have changed := (swapRemove_perm entries index inside).trans
    (.of_eq (eraseIdx_eq_hangUp serving.nodup found))
  refine ⟨.inl rfl, next, [], _, closes, ⟨left, ?_⟩, ?_⟩
  · exact (changed.map Prod.fst).nodup_iff.mpr
      (serving.nodup.sublist (List.filter_sublist.map Prod.fst))
  · intro entry other
    rw [changed.mem_iff]
    exact keepsOthers_hangUp entries fd entry other

theorem Serving.handled_iff (serving : Serving server entries)
    (opened : ∃ entry ∈ entries, entry.1 = fd) :
    Handled server entries fd result ↔
      Harmless server result ∧ Detaches server entries fd result := by
  constructor
  · rintro ⟨closed | ⟨bytes, message, rfl, unpacks, _⟩, next, sends, after, returns, _⟩
    · subst closed
      exact ⟨trivial, serving.detaches_of_returns opened returns⟩
    · refine ⟨(harmless_iff unpacks).mpr ?_, serving.detaches_of_returns opened returns⟩
      rw [Returns, processPacket_message unpacks] at returns
      exact serving.harmless_of_defined (by rw [returns]; exact Option.some_ne_none _)
  · rintro ⟨harmless, detaches⟩
    cases result with
    | none => exact harmless.elim
    | some bytes =>
        cases unpacks : unpack bytes with
        | none =>
            cases bytes with
            | nil => exact serving.handled_of_closed opened (detaches [] rfl (.inl rfl))
            | cons first rest =>
                obtain ⟨toLength, fromLength, framed, _⟩ := harmless
                obtain ⟨message, defined⟩ := unpack_framed framed
                rw [unpacks] at defined
                cases defined
        | some message =>
            obtain ⟨named, listed⟩ := (harmless_iff unpacks).mp harmless
            exact serving.handled_of_message opened unpacks named listed detaches

end

/-! Whole runs. -/

def Expected (server : Server) (event : Event) (_ : Server) : Prop :=
  match event with
  | .accept fd => fd ≠ -1 ∧ fd ∉ server.openSockets.take server.numOpen ∧
      server.numOpen + 2 ≠ server.capacity
  | .recv _ result => Harmless server result

def ServesAll (server : Server) : Prop := ∃ entries, Serving server entries

theorem setup_serving (answeringMachine : Int) : Serving (setup answeringMachine) [] := by
  exact ⟨setup_represents answeringMachine, List.nodup_nil⟩

theorem Serving.opened {server : Server} {entries : List Entry} (serving : Serving server entries)
    {fd : Int} (listed : fd ∈ server.openSockets.take server.numOpen) :
    ∃ entry ∈ entries, entry.1 = fd := by
  rw [serving.represents.sockets_eq] at listed
  exact List.mem_map.mp listed

section

variable [Allocator]

theorem Serving.accept {server : Server} {entries : List Entry} (serving : Serving server entries)
    (fd : Int) (valid : fd ≠ -1) (fresh : fd ∉ server.openSockets.take server.numOpen)
    (room : server.numOpen + 2 ≠ server.capacity) :
    ∃ next, serve reliable (.accept fd) server = some next ∧
      Serving next (entries ++ [(fd, [])]) := by
  have initial : Represents (Machine.mk server []).server entries := serving.represents
  obtain ⟨next, returns, after⟩ := initial.answer_returns fd valid
    (by rw [← serving.represents.numOpen_eq]; exact room)
  rw [serving.represents.sockets_eq] at fresh
  refine ⟨next, (serve_accept_iff fd).mpr ⟨_, returns⟩, after, ?_⟩
  · rw [List.map_append, List.map_singleton, List.nodup_append]
    refine ⟨serving.nodup, List.nodup_singleton _, ?_⟩
    intro first member second same
    rw [List.mem_singleton.mp same]
    rintro rfl
    exact fresh member

theorem Serving.step {server next : Server} {entries : List Entry} (serving : Serving server entries)
    (event : Event) (taken : serve reliable event server = some next)
    (expected : Expected server event next) : ∃ after, Serving next after := by
  cases event with
  | accept fd =>
      obtain ⟨valid, fresh, room⟩ := expected
      obtain ⟨other, accepts, after⟩ := serving.accept fd valid fresh room
      obtain rfl := Option.some.inj (taken.symm.trans accepts)
      exact ⟨_, after⟩
  | recv fd result =>
      obtain ⟨listed, sends, returns⟩ := (serve_recv_iff fd result).mp taken
      have opened := serving.opened listed
      obtain ⟨_, other, _, after, again, left, _⟩ := (serving.handled_iff opened).mpr
        ⟨expected, serving.detaches_of_returns opened returns⟩
      rw [Returns, returns] at again
      cases again
      exact ⟨after, left⟩

/-- In every run on harmless input the server knows its connections, and a further result of
`recv` is handled exactly when it is harmless and moves no handle into a block that is too small. -/
theorem malformed_handled_iff (answeringMachine : Int) (server : Server)
    (reach : Reach (fun first => first = setup answeringMachine) (serve reliable) Expected server) :
    ∃ entries, Serving server entries ∧ ∀ fd ∈ server.openSockets.take server.numOpen,
      ∀ result, Handled server entries fd result ↔
        Harmless server result ∧ Detaches server entries fd result := by
  obtain ⟨entries, serving⟩ : ServesAll server := by
    apply reach.invariant
    · rintro first rfl
      exact ⟨[], setup_serving answeringMachine⟩
    · rintro state event next ⟨entries, serving⟩ taken expected
      exact serving.step event taken expected
  exact ⟨entries, serving, fun fd listed result => serving.handled_iff (serving.opened listed)⟩

end

section

attribute [local instance] roundedBlocks

theorem malformed_handled_registration : ∃ server entries, Serving server entries ∧
    Handled server entries 4 (some [0, 0, 0, 0, 1, 0, 1, 97]) := by
  obtain ⟨server, accepts, serving⟩ := (setup_serving 3).accept 4 (by decide) (by decide)
    (by decide)
  have listed : 4 ∈ server.openSockets.take server.numOpen := by
    rw [serving.represents.sockets_eq]
    decide
  obtain ⟨entries, known, handled⟩ := malformed_handled_iff 3 server
    (.step (.accept 4) (.start rfl) accepts ⟨by decide, by decide, by decide⟩)
  refine ⟨server, entries, known, (handled 4 listed _).mpr
    ⟨⟨0, 1, ⟨rfl, rfl, by decide⟩, fun _ => by decide, fun list => by cases list⟩, ?_⟩⟩
  intro received _ _
  refine .inl ?_
  rw [Server.listed, serving.represents.sockets_eq]
  rfl

/-- Neither a failed `recv` is handled nor six bytes that announce a long handle. -/
theorem malformed_unhandled : ∃ server, serve reliable (.accept 4) (setup 3) = some server ∧
    4 ∈ server.openSockets.take server.numOpen ∧ ∀ entries, ¬Handled server entries 4 none ∧
      ¬Handled server entries 4 (some [0, 0, 0, 0, 6, 255]) := by
  obtain ⟨server, accepts, serving⟩ := (setup_serving 3).accept 4 (by decide) (by decide)
    (by decide)
  refine ⟨server, accepts, ?_, ?_⟩
  · rw [serving.represents.sockets_eq]
    decide
  · intro entries
    constructor <;> rintro ⟨_, next, sends, after, returns, _⟩ <;> cases returns

end

end Chat
