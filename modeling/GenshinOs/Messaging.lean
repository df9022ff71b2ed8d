import Mathlib.Data.List.AList

/-!
# Message types

The identifiers, requests, responses and errors that the services exchange
(`src/messaging/msg.rs`, `src/messaging/response.rs`, `src/error.rs`). Process and thread
identifiers are only compared and counted up, so they are natural numbers; addresses and register
values are 64-bit words.
-/

set_option autoImplicit false

namespace GenshinOs

/-- Process identifier. -/
abbrev Pid := Nat

/-- Thread identifier. -/
abbrev Tid := Nat

/-- Virtual address. -/
abbrev VirtAddr := UInt64

/-- Physical address. -/
abbrev PhysAddr := UInt64

/-- Identifier of a request; every request has a response channel of its own, which carries the
same number. -/
abbrev RequestId := Nat

/-- Kind of a memory access. -/
inductive AccessType where
  | read
  | write
  | execute
  deriving DecidableEq, Repr

/-- Memory protection flags of a mapping request. -/
structure MemProt where
  readable : Bool
  writable : Bool
  executable : Bool
  deriving DecidableEq, Repr

/-- Pages that are only read. -/
def MemProt.readOnly : MemProt := ⟨true, false, false⟩

/-- Pages that are read and written. -/
def MemProt.readWrite : MemProt := ⟨true, true, false⟩

/-- Pages that are only executed. -/
def MemProt.execute : MemProt := ⟨false, false, true⟩

/-- Why a thread is blocked. -/
inductive BlockReason where
  | waitingForIo (deviceId : Nat)
  | waitingForMemory
  | waitingForLock (lockAddr : Nat)
  | sleeping (durationMs : Nat)
  | waitingForChild (pid : Pid)
  deriving DecidableEq, Repr

/-- Signals between processes. -/
inductive SignalType where
  | terminate
  | kill
  | stop
  | continue
  | user1
  | user2
  | alarm
  | child
  | segmentationFault
  | illegalInstruction
  | floatingPointException
  deriving DecidableEq, Repr

/-- Payload of an inter-process message. -/
inductive IPCMessage where
  | text (data : String)
  | binary (addr : VirtAddr) (size : Nat)
  | passFd (fd : Nat)
  | sharedMemory (shmid : Nat)
  | signal (signal : SignalType)
  | control (cmd : String) (args : List String) (path : Option String)
  deriving DecidableEq, Repr

/-- Requests to the memory service. -/
inductive MemoryRequest where
  | allocFrame (count : Nat) (pid : Pid)
  | freeFrame (paddr : PhysAddr)
  | mapPage (pid : Pid) (virt : VirtAddr) (phys : PhysAddr) (prot : MemProt)
  | unmapPage (pid : Pid) (virt : VirtAddr)
  | pageFaultHandler (pid : Pid) (faultingAddr : VirtAddr) (accessType : AccessType)
  | swapOut (pid : Pid) (virt : VirtAddr)
  | swapIn (pid : Pid) (virt : VirtAddr)
  | getFrameMap
  | getStats
  deriving DecidableEq, Repr

/-- Requests to the process service. -/
inductive ProcessRequest where
  | schedule (pid : Pid) (tid : Tid)
  | block (pid : Pid) (tid : Tid) (reason : BlockReason)
  | unblock (pid : Pid) (tid : Tid)
  | queryState (pid : Pid)
  | contextSwitch (fromPid toPid : Pid)
  | sendMessage (fromPid toPid : Pid) (msg : IPCMessage)
  | receiveMessage (pid : Pid) (blocking : Bool)
  | peekMessage (pid : Pid)
  | createSharedMemory (pid : Pid) (size : Nat) (prot : MemProt)
  | attachSharedMemory (pid : Pid) (shmid : Nat)
  | detachSharedMemory (pid : Pid) (shmid : Nat)
  | createSemaphore (pid : Pid) (initialValue : UInt32)
  | waitSemaphore (pid : Pid) (semid : Nat)
  | signalSemaphore (pid : Pid) (semid : Nat)
  | createLock (pid : Pid)
  | acquireLock (pid : Pid) (lockId : Nat)
  | releaseLock (pid : Pid) (lockId : Nat)
  | forkProcess (parentPid : Pid)
  | execProcess (pid : Pid) (executable : String) (args : List String) (path : Option String)
  | waitChild (pid : Pid) (childPid : Option Pid)
  | signal (pid : Pid) (signal : SignalType)
  | getProcessInfo (pid : Pid)
  | spawn (program : String) (params : List UInt8)
  | listProcesses
  | getStats
  | getMemoryMap
  deriving DecidableEq, Repr

/-- Mode of an open request. -/
structure OpenFlags where
  read : Bool
  write : Bool
  create : Bool
  truncate : Bool
  append : Bool
  deriving DecidableEq, Repr

/-- Open to read. -/
def OpenFlags.readOnly : OpenFlags := ⟨true, false, false, false, false⟩

/-- Open to write, and create. -/
def OpenFlags.forCreate : OpenFlags := ⟨false, true, true, false, false⟩

/-- Requests to the file service. The ones that no handler acts on are one case. -/
inductive FileRequest where
  | open (path : String) (flags : OpenFlags)
  | close (fd : UInt32)
  | read (fd : UInt32) (offset : Nat) (buf : VirtAddr) (size : Nat)
  | write (fd : UInt32) (offset : Nat) (buf : VirtAddr) (size : Nat)
  | writeData (fd : UInt32) (data : List UInt8)
  | unlink (path : String)
  | stat (path : String)
  | createDirectory (path : String)
  | removeDirectory (path : String)
  | openDirectory (path : String)
  | readDirectory (dirFd : UInt32)
  | closeDirectory (dirFd : UInt32)
  | listDir (path : String)
  | diskInfo
  | cloneFds (fromPid toPid : Pid)
  | other
  deriving DecidableEq, Repr

/-- Requests of system calls to the device service. -/
inductive DeviceRequest where
  | clipboardGet (maxSize : Nat)
  | clipboardSet (data : List UInt8)
  deriving DecidableEq, Repr

/-- System call messages of user processes. The ones that no handler acts on are one case. -/
inductive Syscall where
  | createProcess (executable : String) (args : List String)
  | exitProcess (exitCode : Int32)
  | createThread (entryPoint : VirtAddr)
  | other
  deriving DecidableEq

/-- Hardware interrupts. -/
inductive Interrupt where
  | timer
  | pageFault (addr : VirtAddr) (accessType : AccessType)
  | ioComplete (deviceId : UInt32)
  | syscallTrap
  | hardwareFailure (component : String)
  deriving DecidableEq, Repr

/-- Messages on the bus. -/
inductive KernelMsg where
  | syscall (req : Syscall)
  | interrupt (int : Interrupt)
  | process (req : ProcessRequest)
  | memory (req : MemoryRequest)
  | file (req : FileRequest)
  | device (req : DeviceRequest)
  deriving DecidableEq

/-- Data carried by a successful response. -/
inductive ResponseData where
  | void
  | pid (pid : Nat)
  | fd (fd : Nat)
  | bytesProcessed (count : Nat)
  | physicalAddr (addr : PhysAddr)
  | bytes (data : List UInt8)
  | integer (value : UInt64)
  | memoryStats (totalFrames usedFrames freeFrames : Nat)
  | frameMap (owners : List (Nat × Nat))
  | diskStats (totalSectors usedSectors totalBytes : Nat)
  | string (text : String)
  | stringList (lines : List String)
  deriving DecidableEq, Repr

/-- Errors that travel in responses (`messaging::ServiceError`). -/
inductive MsgServiceError where
  | invalidArguments (msg : String)
  | notFound (resource id : String)
  | permissionDenied (operation : String)
  | resourceExhausted (resource : String)
  | notImplemented (feature : String)
  | other (code : Nat) (msg : String)
  deriving DecidableEq, Repr

/-- A response with the identifier of the request it answers. -/
inductive Response where
  | success (requestId : RequestId) (data : ResponseData)
  | error (requestId : RequestId) (error : MsgServiceError)
  deriving DecidableEq, Repr

/-- The identifier that a response carries. -/
def Response.requestId : Response → RequestId
  | .success id _ => id
  | .error id _ => id

/-- The response that an envelope with this identifier makes of an answer
(`Envelope::respond_success`, `Envelope::respond_error`). -/
def Response.ofAnswer (id : RequestId) : Except MsgServiceError ResponseData → Response
  | .ok data => .success id data
  | .error e => .error id e

/-- Exactly one response, with the identifier of the request. -/
def AnsweredOnce (id : RequestId) (responses : List Response) : Prop :=
  ∃ response, responses = [response] ∧ response.requestId = id

theorem requestId_ofAnswer (id : RequestId) (answer : Except MsgServiceError ResponseData) :
    (Response.ofAnswer id answer).requestId = id := by
  cases answer with
  | error e => rfl
  | ok data => rfl

theorem answeredOnce_map {id : RequestId} {answers : List (Except MsgServiceError ResponseData)} :
    AnsweredOnce id (answers.map (Response.ofAnswer id)) ↔ answers.length = 1 := by
  constructor
  · rintro ⟨response, hone, -⟩
    have hlength := congrArg List.length hone
    rwa [List.length_map] at hlength
  · intro hlength
    obtain ⟨answer, rfl⟩ := List.length_eq_one_iff.1 hlength
    exact ⟨_, rfl, requestId_ofAnswer id answer⟩

/-- Data of a successful response. -/
def Response.data : Response → Option ResponseData
  | .success _ data => some data
  | .error _ _ => none

/-- Errors inside a service (`error::ServiceError`, the `Service` case of `GenshinError`). -/
inductive ServiceError where
  | invalidArguments (param reason : String)
  | notFound (resourceType id : String)
  | permissionDenied (operation reason : String)
  | resourceExhausted (resource : String) (available requested : Nat)
  | io (operation details : String)
  | notImplemented (feature : String)
  | other (code : Nat) (msg : String)
  deriving DecidableEq, Repr

/-- The text of an error, as the error response of a failed request carries it. -/
def ServiceError.display : ServiceError → String
  | .invalidArguments param reason => "[Service] Invalid argument '" ++ param ++ "': " ++ reason
  | .notFound resourceType id => "[Service] " ++ resourceType ++ " not found: " ++ id
  | .permissionDenied operation reason =>
      "[Service] Permission denied for '" ++ operation ++ "': " ++ reason
  | .resourceExhausted resource available requested =>
      "[Service] Resource exhausted: " ++ resource ++ " (available: " ++ toString available ++
        ", requested: " ++ toString requested ++ ")"
  | .io operation details => "[Service] I/O error during '" ++ operation ++ "': " ++ details
  | .notImplemented feature => "[Service] Not implemented: " ++ feature
  | .other code msg => "[Service] Error (code " ++ toString code ++ "): " ++ msg

end GenshinOs
