import Cpe464.Library.Bytes
import Cpe464.Chat.ServerCore

/-!
The two arrays of the server as they lie in memory, and `resize` on their bytes. An `int` has
4 bytes and a `char *` 8, and a pointer of zero bytes is NULL.
-/

namespace Chat

open Bytes

structure Arrays where
  numOpen : Nat
  capacity : Nat
  openSockets : Buffer (4 * capacity)
  clients : Buffer (8 * capacity)

def slot (width : Nat) {size : Nat} (array : Buffer size) (i : Nat) : List UInt8 :=
  (List.range width).map fun k => array.fetch (width * i + k)

def Arrays.openSocket (arrays : Arrays) (i : Nat) : List UInt8 := slot 4 arrays.openSockets i

def Arrays.client (arrays : Arrays) (i : Nat) : List UInt8 := slot 8 arrays.clients i

/-- `resize`: `memcpy` copies `capacity` bytes of each array. There is no result where
`2*capacity` overflows an `int`. -/
def Arrays.resize (arrays : Arrays) : Option Arrays :=
  if arrays.numOpen + 2 = arrays.capacity then
    if 2 * arrays.capacity < 2 ^ 31 then
      some {
        numOpen := arrays.numOpen
        capacity := 2 * arrays.capacity
        openSockets := (Buffer.zero _).store 0 (arrays.openSockets.bytes.take arrays.capacity)
        clients := (Buffer.zero _).store 0 (arrays.clients.bytes.take arrays.capacity) }
    else none
  else some arrays

def Arrays.Grows (arrays : Arrays) : Prop :=
  ∃ next, arrays.resize = some next ∧ next.capacity = 2 * arrays.capacity ∧
    (∀ i < arrays.numOpen, next.openSocket i = arrays.openSocket i ∧
      next.client i = arrays.client i) ∧
    ∀ i, arrays.capacity ≤ i → next.openSocket i = List.replicate 4 0 ∧
      next.client i = List.replicate 8 0

def Arrays.Blank (arrays : Arrays) : Prop :=
  (∀ j < 4 * arrays.numOpen, arrays.capacity ≤ j → arrays.openSockets.fetch j = 0) ∧
    ∀ j < 8 * arrays.numOpen, arrays.capacity ≤ j → arrays.clients.fetch j = 0

def intOf (host : ByteOrder) (bytes : List UInt8) : Int :=
  asInt (UInt32.ofNat (host.word32 (bytes.getD 0 0) (bytes.getD 1 0) (bytes.getD 2 0)
    (bytes.getD 3 0)))

/-- The tables that the arrays are, with what `heap` holds behind the pointers. -/
structure Arrays.Shows (host : ByteOrder) (heap : List UInt8 → HandleBuffer) (arrays : Arrays)
    (server : Server) : Prop where
  numOpen_eq : server.numOpen = arrays.numOpen
  capacity_eq : server.capacity = arrays.capacity
  openSockets_eq : server.openSockets =
    (List.range arrays.capacity).map fun i => intOf host (arrays.openSocket i)
  clients_eq : server.clients = (List.range arrays.capacity).map fun i =>
    if arrays.client i = List.replicate 8 0 then none else some (heap (arrays.client i))

end Chat
