import Cpe464.Library.Scanning
import Cpe464.Chat.ClientCore

/-!
How `process_user_input` reads a line, down to the commands of the client: `fgets`, the
selection by the first character, and the scans of `send_message` and `broadcast`. There is no
result where a function reads or writes outside its arrays, or a variable that is not set.
-/

namespace Chat

open Bytes Scanning

abbrev inputSize : Nat := 2000

def isBlank (byte : UInt8) : Bool := byte == 32 || (9 ≤ byte && byte ≤ 13)

/-- `fgets`, which stops behind a newline; at the end of the input nothing is stored. -/
def fgets (size : Nat) (stdin : List UInt8) : Option (List UInt8) :=
  if stdin = [] then none
  else some ((stdin.takeWhile (· ≠ 10) ++ if 10 ∈ stdin then [10] else []).take (size - 1))

def destination (word : List UInt8) : Destination :=
  have short : (word.take 100).length ≤ 100 := List.length_take_le _ _
  ⟨⟨word.take 100, Nat.lt_of_le_of_lt short (by decide)⟩, short⟩

/-- `send_message`, up to the start of the text. The local array `garbage` has 100 bytes. -/
def scanMessage (line : List UInt8) : Option Command :=
  let garbage := word isBlank line
  let toHandle := destination (word isBlank (behindWord isBlank line))
  if garbage = [] ∨ 100 ≤ garbage.length ∨ toHandle.handle.bytes = [] then none
  else do
    let found ← firstMatch toHandle.handle.bytes line
    let messageStart := found + toHandle.handle.bytes.length + 1
    if messageStart ≤ line.length then some (.message toHandle (line.drop messageStart)) else none

def scanBroadcast (line : List UInt8) : Option Command :=
  let garbage := word isBlank line
  let messageStart := garbage.length + 1
  if garbage = [] ∨ 100 ≤ garbage.length then none
  else if messageStart ≤ line.length then some (.broadcast (line.drop messageStart))
  else none

def selector (line : List UInt8) : UInt8 :=
  if line.getD 0 0 = 37 then line.getD 1 0 else line.getD 0 0

def parseInput (line : List UInt8) : Option Command :=
  if line.length > 1 then
    let sel := selector line
    if sel = 109 ∨ sel = 77 then scanMessage line
    else if sel = 98 ∨ sel = 66 then scanBroadcast line
    else if sel = 108 ∨ sel = 76 then some .list
    else if sel = 101 ∨ sel = 69 then some .exit
    else some .help
  else some .help

def Client.readUserInput (client : Client) (fails : Bool) (stdin : List UInt8) : Option Turn := do
  let line ← fgets inputSize stdin
  let command ← parseInput (cString line)
  some (client.processUserInput fails command)

def SentAsTyped (handle text : List UInt8) (turn : Option Turn) : Prop :=
  ∃ made sent message, turn = some made ∧ made.sends = [sent] ∧ unpack sent = some message ∧
    message.flag = 6 ∧ message.toHandle.bytes = handle ∧ message.text = text ++ [0]

def SelectsMessage (command : List UInt8) : Prop :=
  ∃ letter rest, (letter = 109 ∨ letter = 77) ∧
    (command = letter :: rest ∨ command = 37 :: letter :: rest)

end Chat
