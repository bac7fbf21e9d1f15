import CpuScheduler.L4Task.UserTask

/-!
# System calls of user tasks, and data written by request

The system call handlers of cpu_core.cpp and the part of
`TaskDataAPIHandler::handlePUT` behind the parsing of the path, with the
blocks of memory they use. A handler runs under the page directory of the
calling task, so the argument block at `eax` and a string to print are at
user addresses. A buffer that is handed to the socket manager is used later,
under the kernel's page directory: the block is logged, at its kernel
address, when the manager has taken it.

The argument block is one object and is logged as a whole. `printk` reads
its string byte by byte up to the terminating zero.
-/
namespace CpuScheduler.L4

open Word L3

/-- What a system call works on: memory at the addresses of the calling task,
the socket manager, the timer and what was printed. -/
structure Core (T : Nat) where
  mem : Mem
  manager : SocketManager T
  timerCounter : UInt32
  screen : List UInt8

/-- A 32-bit word, least significant byte first. -/
def readWord (mem : Mem) (a : UInt32) : UInt32 :=
  be32 (mem (a + 3)) (mem (a + 2)) (mem (a + 1)) (mem a)

def writeWord (mem : Mem) (a v : UInt32) : Mem :=
  writeBytes mem a (fun k => (v >>> (8 * UInt32.ofNat k)).toUInt8) 4

theorem readWord_congr {mem mem' : Mem} {a : UInt32} (h : ∀ x : UInt32, (x - a).toNat < 4 → mem' x = mem x) :
    readWord mem' a = readWord mem a := by
  have hk (k : UInt32) (hk : k.toNat < 4) : mem' (a + k) = mem (a + k) := by
    apply h
    rwa [add_sub_cancel_left]
  have h0 : mem' a = mem a := h a (by rw [sub_self]; decide)
  unfold readWord
  rw [hk 3 (by decide), hk 2 (by decide), hk 1 (by decide), h0]

theorem readWord_writeBytes_self (mem : Mem) (a : UInt32) (bytes : Nat → UInt8) :
    readWord (writeBytes mem a bytes 4) a = be32 (bytes 3) (bytes 2) (bytes 1) (bytes 0) := by
  have hk (k : UInt32) (hk : k.toNat < 4) : writeBytes mem a bytes 4 (a + k) = bytes k.toNat := by
    rw [writeBytes, add_sub_cancel_left, if_pos hk]
  have h0 : writeBytes mem a bytes 4 a = bytes 0 := by
    rw [writeBytes, sub_self, if_pos (by decide)]
    rfl
  unfold readWord
  rw [hk 3 (by decide), hk 2 (by decide), hk 1 (by decide), h0]
  rfl

section Handlers
variable {T : Nat} (t : UserTask) (taskID : Fin T) (c : Core T) (eax : UInt32)

/-- The bytes up to the terminating zero; at most `fuel` of them.
mirrors screen.cpp:88-96 -/
def printk (mem : Mem) : Nat → UInt32 → Traced Access (List UInt8)
  | 0, _ => return []
  | fuel + 1, message => do
    Traced.emit [.user message.toNat 1]
    if mem message = 0 then return []
    let rest ← printk mem fuel (message + 1)
    return mem message :: rest

end Handlers

def CHANGED_RESPONSE_CODE : UInt8 := 0x44
def FORBIDDEN_RESPONSE_CODE : UInt8 := 0x83
def NOT_FOUND_RESPONSE_CODE : UInt8 := 0x84
def INTERNAL_SERVER_ERROR_RESPONSE_CODE : UInt8 := 0xA0

/-- The code of a response and its text. -/
structure CoAPResponse where
  responseCode : UInt8
  text : String
  deriving DecidableEq, Repr

/-- The part behind the parsing of the path. `mem` is memory at kernel
addresses; the task, if there is one, comes with its running state.
mirrors api_handlers.cpp:434-483 -/
def handlePUT (mem : Mem) (pUserTask : Option (UserTask × Bool)) (address : UInt32)
    (payload : Nat → UInt8) (payloadSize : UInt32) : Traced Access (CoAPResponse × Mem) :=
  match pUserTask with
  | none => return (⟨NOT_FOUND_RESPONSE_CODE, ""⟩, mem)
  | some (t, running) => do
    if !t.addrSpaceIsUserAccessible address payloadSize then
      return (⟨FORBIDDEN_RESPONSE_CODE, ""⟩, mem)
    if payloadSize = 0 then return (⟨CHANGED_RESPONSE_CODE, ""⟩, mem)
    let (success, mem) ← t.setData mem address payload payloadSize
    if !success then
      return (⟨INTERNAL_SERVER_ERROR_RESPONSE_CODE,
        "Failed to write data to the task's address space"⟩, mem)
    return (⟨CHANGED_RESPONSE_CODE,
      if running then "Warning: data changed while task was running" else ""⟩, mem)

end CpuScheduler.L4
