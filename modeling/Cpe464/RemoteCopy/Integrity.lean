import Cpe464.RemoteCopy.Delivery

/-!
The output of rcopy is the file, as long as no flush of `missing` takes the short last
chunk for a full one: every flushed packet is written with the length of the packet that
filled the gap.
-/

namespace RemoteCopy

open Bytes

variable {setup : Setup}

def Setup.LastWaits (setup : Setup) (window : Window) : Prop :=
  window.bottom < setup.numChunks ∧ setup.numChunks ≤ window.top ∧
    ∀ offset < ((setup.numChunks : Int) - window.bottom).toNat,
      isValid window (window.bottom + 1 + offset) = some true

instance (window : Window) : Decidable (setup.LastWaits window) :=
  inferInstanceAs (Decidable (_ ∧ _ ∧ _))

/-- When rcopy receives the packet of `bottom` while the last chunk waits right behind it,
the last chunk is as long as the others. -/
def FlushSafe (setup : Setup) (transfer : Transfer) (event : Event) (_ : Transfer) : Prop :=
  match event with
  | .clientReceive _ _ =>
      transfer.toClient.head? =
        some (.intact (setup.dataFrame transfer.window.bottom.toNat)) →
      setup.LastWaits transfer.window → (setup.chunk setup.numChunks).length = setup.bufSize
  | _ => True

instance (setup : Setup) (transfer next : Transfer) (event : Event) :
    Decidable (FlushSafe setup transfer event next) := by
  unfold FlushSafe
  split <;> infer_instance

def Faithful (setup : Setup) (transfer : Transfer) (event : Event) (next : Transfer) : Prop :=
  EndHonest setup transfer event next ∧ FlushSafe setup transfer event next

instance (setup : Setup) (transfer next : Transfer) (event : Event) :
    Decidable (Faithful setup transfer event next) :=
  inferInstanceAs (Decidable (_ ∧ _))

def Exact (setup : Setup) (transfer : Transfer) : Prop :=
  transfer.output = (List.range (transfer.window.bottom - 1).toNat).map
    fun index => setup.chunk (index + 1)

section

variable {transfer : Transfer} {received : Int × Packet} {rest : List Flight} {stack : Packet}
  {client : ClientState} {window : Window} {actions : List ClientAction}

theorem Agreed.lastWaits (small : setup.Small) (agreed : Agreed setup transfer)
    (receives : receive setup.clientHost stack transfer.toClient = some (received, rest))
    (step : Receives transfer.window transfer.client (some received) client window actions)
    (index : Nat) (count : index < (blocks actions).length)
    (last : transfer.window.bottom + index = setup.numChunks) (behind : 0 < index) :
    setup.LastWaits transfer.window := by
  have wellFormed := agreed.settled.wellFormed
  have bottom := wellFormed.bottom_pos
  have topBound := wellFormed.top_lt
  have waits (offset : Nat) (positive : 0 < offset) (before : offset ≤ index) :
      transfer.window.bottom + offset ≤ transfer.window.top ∧
        transfer.window.isSet (transfer.window.bottom + offset) = true := by
    obtain ⟨_, later⟩ := agreed.block_eq small receives step offset _
      (List.getElem?_eq_getElem (by omega))
    exact (later positive).2.2
  refine ⟨by omega, ?_, ?_⟩
  · have inside := (waits index behind (Nat.le_refl _)).1
    omega
  · intro offset before
    obtain ⟨inside, set⟩ := waits (offset + 1) (by omega) (by omega)
    rw [Int.natCast_succ] at inside set
    rw [isValid_eq wellFormed _ (by omega) (by omega), Option.some.injEq, Int.add_assoc,
      Int.add_comm 1]
    exact set

theorem Agreed.block_exact (small : setup.Small) (agreed : Agreed setup transfer)
    (receives : receive setup.clientHost stack transfer.toClient = some (received, rest))
    (step : Receives transfer.window transfer.client (some received) client window actions)
    (safe : transfer.toClient.head? =
        some (.intact (setup.dataFrame transfer.window.bottom.toNat)) →
      setup.LastWaits transfer.window → (setup.chunk setup.numChunks).length = setup.bufSize)
    (index : Nat) (block : List UInt8) (found : (blocks actions)[index]? = some block) :
    block = setup.chunk (transfer.window.bottom.toNat + index) := by
  have bottom := agreed.settled.wellFormed.bottom_pos
  have chunks := agreed.middle_le_chunks
  obtain ⟨⟨zeros, content⟩, later⟩ := agreed.block_eq small receives step index block found
  have lengths : (setup.chunk transfer.window.bottom.toNat).length ≤
      (setup.chunk (transfer.window.bottom.toNat + index)).length := by
    by_cases behind : 0 < index
    · obtain ⟨full, front, inside, set⟩ := later behind
      have before := (agreed.waiting _ (by omega) inside set).1
      by_cases last : transfer.window.bottom + index = setup.numChunks
      · obtain ⟨count, _⟩ := List.getElem?_eq_some_iff.mp found
        have whole := safe front (agreed.lastWaits small receives step index count last behind)
        rw [show transfer.window.bottom.toNat + index = setup.numChunks by omega, full, whole]
      · rw [full, setup.chunk_full _ (by omega) (by omega)]
    · rw [show index = 0 by omega, Nat.add_zero]
  rw [content, Nat.sub_eq_zero_of_le lengths, List.take_zero, List.append_nil]

theorem receive_exact (small : setup.Small) (agreed : Agreed setup transfer)
    (exact : Exact setup transfer)
    (receives : receive setup.clientHost stack transfer.toClient = some (received, rest))
    (step : Receives transfer.window transfer.client (some received) client window actions)
    (safe : transfer.toClient.head? =
        some (.intact (setup.dataFrame transfer.window.bottom.toNat)) →
      setup.LastWaits transfer.window → (setup.chunk setup.numChunks).length = setup.bufSize) :
    transfer.output ++ blocks actions = (List.range (window.bottom - 1).toNat).map
      fun index => setup.chunk (index + 1) := by
  have bottom := agreed.settled.wellFormed.bottom_pos
  have forward := step.bottom_eq
  have count : (window.bottom - 1).toNat =
      (transfer.window.bottom - 1).toNat + (blocks actions).length := by
    rw [blocks_length]
    omega
  have flushed : blocks actions = (List.range (blocks actions).length).map
      fun index => setup.chunk (transfer.window.bottom.toNat + index) := by
    apply List.ext_getElem
    · simp
    · intro index inside _
      rw [List.getElem_map, List.getElem_range]
      exact agreed.block_exact small receives step safe index _ (List.getElem?_eq_getElem inside)
  rw [count, List.range_add, List.map_append, List.map_map, ← exact, flushed]
  congr 1
  rw [List.length_map, List.length_range]
  apply List.map_congr_left
  intro index _
  simp only [Function.comp]
  congr 1
  omega

end

theorem step_exact (small : setup.Small) {transfer next : Transfer} {event : Event}
    (agreed : Agreed setup transfer) (exact : Exact setup transfer)
    (moves : Moves setup transfer event next) (safe : FlushSafe setup transfer event next) :
    Exact setup next := by
  by_cases receipt : ∃ stack control, event = .clientReceive stack control
  · obtain ⟨stack, control, rfl⟩ := receipt
    cases moves with
    | @receive stack control received rest client window actions receives steps =>
        obtain ⟨_, step⟩ := clientStep_receives agreed.settled
          (agreed.fits small receives window) steps
        exact receive_exact small agreed exact receives step safe
    | networkToServer disturbs => cases disturbs
    | networkToClient disturbs => cases disturbs
  · obtain ⟨output, window, _⟩ := moves.silent (fun stack control same =>
      receipt ⟨stack, control, same⟩)
    rw [Exact, output, window]
    exact exact

/-- What rcopy has written is a prefix of the file, each `write` one chunk with its own
length, and after END_OF_FILE it is the file. -/
theorem output_faithful (small : setup.Small) (transfer : Transfer)
    (reach : Transition.Reach (Initial setup) (step setup) (Faithful setup) transfer) :
    transfer.output.flatten <+: setup.file ∧
    (transfer.ended = true → transfer.output.flatten = setup.file) ∧
    (∀ (index : Nat) block, transfer.output[index]? = some block →
      block = setup.chunk (index + 1)) := by
  have completed := reach_completed small (reach.mono (fun _ _ _ allowed => allowed.1))
  have exact : Exact setup transfer := by
    apply reach.invariantWith (fun _ reached => Reachable.of reached)
    · rintro first ⟨packet, eofIndex, duplicates, rfl⟩
      rfl
    · intro before event after reached exact taken allowed
      exact step_exact small (reached.agreed small) exact (step_moves taken) allowed.2
  refine ⟨?_, ?_, ?_⟩
  · rw [exact, setup.chunks_flatten]
    exact List.take_prefix _ _
  · intro ended
    have all := completed.ended ended
    rw [exact, all, Setup.endIndex, Int.add_sub_cancel, Int.toNat_natCast, setup.chunks_complete]
  · intro index block found
    rw [exact, List.getElem?_map, Option.map_eq_some_iff] at found
    obtain ⟨number, inside, rfl⟩ := found
    obtain ⟨_, same⟩ := List.getElem?_eq_some_iff.mp inside
    rw [List.getElem_range] at same
    rw [same]

theorem output_faithful_twoChunks : ∃ transfer,
    Transition.run (step twoChunks) (regular ++ [.serverBye Packet.zero,
      .clientReceive Packet.zero Packet.zero]) (started twoChunks Packet.zero 0 0) =
        some transfer ∧
    transfer.ended = true ∧ transfer.output.flatten = twoChunks.file := by
  have ends : (Transition.run (step twoChunks) (regular ++ [.serverBye Packet.zero,
      .clientReceive Packet.zero Packet.zero])
        (started twoChunks Packet.zero 0 0)).map (fun transfer => transfer.ended) = some true := by
    decide +kernel
  obtain ⟨transfer, executed, ended⟩ := Option.map_eq_some_iff.mp ends
  have reach : Transition.Reach (Initial twoChunks) (step twoChunks) (Faithful twoChunks)
      transfer :=
    Transition.Reach.run _ (.start ⟨Packet.zero, 0, 0, rfl⟩) executed (by decide +kernel)
  exact ⟨transfer, executed, ended,
    (output_faithful (by decide +kernel) transfer reach).2.1 ended⟩

def lossy : List Event :=
  [.serverSend false false, .serverSend false false, .lose .toClient 0,
    .clientReceive Packet.zero Packet.zero, .serverSend false false, .serverWait false,
    .clientReceive Packet.zero Packet.zero, .serverWait true, .serverProcess Packet.zero,
    .serverSend false false, .serverWait true, .serverProcess Packet.zero,
    .serverSend false false, .serverWait false, .clientReceive Packet.zero Packet.zero,
    .serverWait true, .serverProcess Packet.zero, .serverBye Packet.zero,
    .clientReceive Packet.zero Packet.zero]

theorem output_padded : ∃ setup transfer, Setup.Small setup ∧ Reachable setup transfer ∧
    setup.file.length = 401 ∧ transfer.ended = true ∧ transfer.output.flatten.length = 800 ∧
    ¬transfer.output.flatten <+: setup.file := by
  have padded : (Transition.run (step twoChunks) lossy (started twoChunks Packet.zero 0 0)).map
      (fun transfer => (transfer.ended, transfer.output.flatten.length)) = some (true, 800) := by
    decide +kernel
  obtain ⟨transfer, executed, values⟩ := Option.map_eq_some_iff.mp padded
  obtain ⟨ended, length⟩ := Prod.mk.inj values
  refine ⟨twoChunks, transfer, by decide +kernel, twoChunks_reachable 0 _ transfer executed,
    by decide +kernel, ended, length, ?_⟩
  intro isPrefix
  have bound := isPrefix.length_le
  rw [length] at bound
  exact absurd bound (by decide +kernel)

end RemoteCopy
