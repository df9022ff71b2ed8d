import GenshinOs.Files.Descriptor
import GenshinOs.Files.Vfs
import GenshinOs.Files.Words
import GenshinOs.Lib.Trace

/-!
# File service

The handlers of the file service (`src/services/file/service.rs`). A request carries no process, so
every handler works for process 0. The two forms of a request share their work and differ in the
answers; only the answered form of a close brings the file to disk first. A write is copied into the
file in memory, brought to disk and, when that went well and left a run, recorded in the node of the
file; the answer is the same either way. A failure of a handler is answered once more by
`handleEnvelope`. Messages of other kinds change nothing and are left out.

The handlers compute with lists and natural numbers. The vectors and slices of a read or a write can stop the
thread of the service before it has changed or sent anything (`panics`): then there is no answer (`serve`),
and the state is the one before the request (`take`).
-/

set_option autoImplicit false

namespace GenshinOs.Files

open GenshinOs.Lib GenshinOs.Hardware

/-- State of the file service. `openFiles` has the files in memory by inode. -/
structure FileService where
  vfs : VirtualFileSystem
  fdManager : FileDescriptorManager
  openFiles : HashMap Nat File
  disk : SectorDisk

/-- An answer on the response channel of a request. -/
abbrev Answer := Except MsgServiceError ResponseData

/-- Outcome of a handler. -/
structure Handled where
  service : FileService
  sent : List Answer
  result : Except ServiceError Unit

/-- Path and name around the last slash. -/
def splitLast (path : String) : Option (String × String) :=
  match path.toList.reverse.span (· ≠ '/') with
  | (_, []) => none
  | (name, _ :: parent) =>
    some (if parent = [] then "/" else String.ofList parent.reverse, String.ofList name.reverse)

/-- Split path into parent and name. -/
def splitPath (path : String) : Except ServiceError (String × String) :=
  if path.isEmpty then .error (.invalidArguments "path" "Path cannot be empty")
  else
    let parts := pathComponents path
    match parts.getLast? with
    | none => .ok ("/", "/")
    | some fileName =>
      .ok (if parts.length > 1 then "/" ++ String.intercalate "/" parts.dropLast else "/", fileName)

/-- The mode of the flags; without any a file is opened for reading. -/
def openFlagsToMode (flags : OpenFlags) : OpenMode :=
  if flags.read && flags.write then .readWrite
  else if flags.write then .write
  else if flags.append then .append
  else .read

namespace FileService

/-! ## Opening -/

/-- The node that a path names, created when the flags ask for it. An error comes with its answer. -/
def openNode (v : VirtualFileSystem) (pid : Pid) (path : String) (flags : OpenFlags) :
    Except (ServiceError × MsgServiceError) VFSNode × VirtualFileSystem :=
  match v.lookupPath path with
  | .ok node => (.ok node, v)
  | .error e =>
    if flags.create = false then (.error (e, .notFound "File" path), v)
    else
      match splitLast path with
      | none =>
        (.error (.invalidArguments "path" "Cannot create root as file",
          .invalidArguments "Cannot create root as file"), v)
      | some (parentPath, name) =>
        match v.lookupPath parentPath with
        | .error _ =>
          (.error (.notFound "Parent directory" parentPath, .notFound "Parent directory" parentPath), v)
        | .ok parent =>
          match v.createFile parent.inode name pid with
          | (.error e, v') => (.error (e, .other 21 e.display), v')
          | (.ok _, v') =>
            match v'.lookupPath path with
            | .error e => (.error (e, .notFound "File" path), v')
            | .ok node => (.ok node, v')

/-- A file that is not in memory yet, with the bytes that its node has on disk. -/
def loadFile (v : VirtualFileSystem) (d : SectorDisk) (inode : Nat) (path : String) (mode : OpenMode) :
    File :=
  let file := File.new inode path mode
  match v.lookup inode with
  | none => file
  | some node =>
    match node.blocks with
    | [] => file
    | first :: _ =>
      (File.loadFromDisk { file with
        startSector := some (first % 2 ^ 32)
        sectorCount := node.blocks.length % 2 ^ 32
        size := node.size } d).2

/-- The file in memory after an open. -/
def openedFile (s : FileService) (inode : Nat) (path : String) (flags : OpenFlags) : File :=
  match s.openFiles.lookup inode with
  | some file => { file with mode := openFlagsToMode flags, position := 0, eof := false }
  | none => loadFile s.vfs s.disk inode path (openFlagsToMode flags)

/-- Find or create the node, load the file unless it is open, and give out a descriptor. -/
def handleOpenWithResponse (s : FileService) (pid : Pid) (path : String) (flags : OpenFlags) : Handled :=
  match openNode s.vfs pid path flags with
  | (.error (e, answer), v) => ⟨{ s with vfs := v }, [.error answer], .error e⟩
  | (.ok node, v) =>
    if node.isFile = false then
      ⟨{ s with vfs := v }, [.error (.invalidArguments "Not a file")],
        .error (.invalidArguments "path" "Not a file")⟩
    else
      let found := { s with vfs := v }
      let opened := { found with
        openFiles := s.openFiles.insert node.inode (found.openedFile node.inode path flags) }
      match s.fdManager.allocate pid node.inode 0 with
      | (.error e, manager) => ⟨{ opened with fdManager := manager }, [], .error e⟩
      | (.ok fd, manager) => ⟨{ opened with fdManager := manager }, [.ok (.fd fd)], .ok ()⟩

/-- The same without answers. -/
def handleOpen (s : FileService) (pid : Pid) (path : String) (flags : OpenFlags) : Handled :=
  { s.handleOpenWithResponse pid path flags with sent := [] }

/-! ## Reading, writing and closing -/

/-- The file behind a descriptor. -/
def fileOf (s : FileService) (pid : Pid) (fd : UInt32) : Option (Nat × File) :=
  (s.fdManager.get pid fd.toNat).bind fun entry =>
    (s.openFiles.lookup entry.file).map fun file => (entry.file, file)

/-- Put an open file back. -/
def setFile (s : FileService) (inode : Nat) (f : File) : FileService :=
  { s with openFiles := s.openFiles.insert inode f }

/-- The error of a descriptor that is not there, -/
def fdNotFound (fd : UInt32) : ServiceError := .notFound "File descriptor" (toString fd.toNat)

/-- and the answer that goes with it. -/
def fdNotFoundAnswer (fd : UInt32) : MsgServiceError := .notFound "File descriptor" (toString fd.toNat)

/-- The cursor of the file is that of all its descriptors. -/
def handleReadWithResponse (s : FileService) (pid : Pid) (fd : UInt32) (count : Nat) : Handled :=
  match s.fileOf pid fd with
  | none => ⟨s, [.error (fdNotFoundAnswer fd)], .error (fdNotFound fd)⟩
  | some (inode, file) =>
    match file.read count with
    | (.error e, file') => ⟨s.setFile inode file', [], .error e⟩
    | (.ok data, file') => ⟨s.setFile inode file', [.ok (.bytes data)], .ok ()⟩

/-- The same without an answer. -/
def handleRead (s : FileService) (pid : Pid) (fd : UInt32) (count : Nat) : Handled :=
  { s.handleReadWithResponse pid fd count with sent := [] }

/-- A node takes over size and run of its file. -/
def recordRun (v : VirtualFileSystem) (inode : Nat) (f : File) (size : Nat) : VirtualFileSystem :=
  match f.startSector with
  | none => v
  | some _ =>
    { v with nodes := HashMap.adjust v.nodes inode fun node => { node with size := size, blocks := f.run } }

/-- Bring a file to disk, and tell its node when that went well. -/
def persist (s : FileService) (inode : Nat) (f : File) : FileService :=
  match f.syncToDisk s.disk with
  | (.error _, f', d) => { s.setFile inode f' with disk := d }
  | (.ok (), f', d) =>
    { s.setFile inode f' with disk := d, vfs := recordRun s.vfs f'.inode f' f'.data.length }

/-- A write goes to disk at once, and the node takes over size and run. -/
def handleWriteWithResponse (s : FileService) (pid : Pid) (fd : UInt32) (data : List UInt8) : Handled :=
  match s.fileOf pid fd with
  | none => ⟨s, [.error (fdNotFoundAnswer fd)], .error (fdNotFound fd)⟩
  | some (inode, file) =>
    match file.write data with
    | (.error e, file') => ⟨s.setFile inode file', [], .error e⟩
    | (.ok written, file') => ⟨s.persist inode file', [.ok (.bytesProcessed written)], .ok ()⟩

/-- The same without an answer. -/
def handleWrite (s : FileService) (pid : Pid) (fd : UInt32) (data : List UInt8) : Handled :=
  { s.handleWriteWithResponse pid fd data with sent := [] }

/-- A descriptor is given back. -/
def handleClose (s : FileService) (pid : Pid) (fd : UInt32) : Handled :=
  match s.fdManager.close pid fd.toNat with
  | (result, manager) => ⟨{ s with fdManager := manager }, [], result⟩

/-- The file goes to disk before its descriptor is closed. Its node is not told. -/
def syncOnClose (s : FileService) (pid : Pid) (fd : UInt32) : FileService :=
  match s.fileOf pid fd with
  | none => s
  | some (inode, file) =>
    if file.dirty then
      match file.syncToDisk s.disk with
      | (_, file', d) => { s.setFile inode file' with disk := d }
    else s

/-- The file is written to disk before. -/
def handleCloseWithResponse (s : FileService) (pid : Pid) (fd : UInt32) : Handled :=
  let closed := (s.syncOnClose pid fd).handleClose pid fd
  match closed.result with
  | .error e => ⟨closed.service, [], .error e⟩
  | .ok () => ⟨closed.service, [.ok .void], .ok ()⟩

/-! ## Files and directories by path -/

/-- The node of a path is deleted. -/
def handleDelete (s : FileService) (path : String) : Handled :=
  match s.vfs.lookupPath path with
  | .error e => ⟨s, [], .error e⟩
  | .ok node =>
    match s.vfs.delete node.inode with
    | (result, v) => ⟨{ s with vfs := v }, [], result⟩

/-- The node of a path is looked up, and only logged. -/
def handleStat (s : FileService) (path : String) : Handled :=
  match s.vfs.lookupPath path with
  | .error e => ⟨s, [], .error e⟩
  | .ok _ => ⟨s, [], .ok ()⟩

/-- A directory of the last name, in the directory of the names before it. -/
def handleMkdir (s : FileService) (pid : Pid) (path : String) : Handled :=
  match splitPath path with
  | .error e => ⟨s, [], .error e⟩
  | .ok (parentPath, dirName) =>
    match s.vfs.lookupPath parentPath with
    | .error e => ⟨s, [], .error e⟩
    | .ok parent =>
      if parent.isDirectory = false then
        ⟨s, [], .error (.invalidArguments "path" "Parent is not a directory")⟩
      else
        match s.vfs.createDirectory parent.inode dirName pid with
        | (.error e, v) => ⟨{ s with vfs := v }, [], .error e⟩
        | (.ok _, v) => ⟨{ s with vfs := v }, [], .ok ()⟩

/-- A directory without entries is deleted. -/
def handleRmdir (s : FileService) (path : String) : Handled :=
  match s.vfs.lookupPath path with
  | .error e => ⟨s, [], .error e⟩
  | .ok node =>
    if node.isDirectory = false then ⟨s, [], .error (.invalidArguments "path" "Not a directory")⟩
    else if node.hasNoChildren = false then
      ⟨s, [], .error (.invalidArguments "path" "Directory not empty")⟩
    else
      match s.vfs.delete node.inode with
      | (result, v) => ⟨{ s with vfs := v }, [], result⟩

/-- The names in a directory, sorted. -/
def listEntries (s : FileService) (path : String) : Except ServiceError (List String) :=
  match s.vfs.lookupPath path with
  | .error e => .error e
  | .ok node =>
    if node.isDirectory = false then .error (.invalidArguments "path" "Not a directory")
    else .ok (node.children.keys.mergeSort fun a b => a ≤ b)

/-- The entries of a directory are read, and only logged. -/
def handleListdir (s : FileService) (path : String) : Handled :=
  match s.listEntries path with
  | .error e => ⟨s, [], .error e⟩
  | .ok _ => ⟨s, [], .ok ()⟩

/-- The entries of a directory, or the text of the error. -/
def handleListdirWithResponse (s : FileService) (path : String) : Handled :=
  match s.listEntries path with
  | .error e => ⟨s, [.error (.other 50 e.display)], .ok ()⟩
  | .ok entries => ⟨s, [.ok (.stringList entries)], .ok ()⟩

/-- A process gets copies of the descriptors of another. -/
def handleCloneFds (s : FileService) (ord : HashOrder) (fromPid toPid : Pid) : Handled :=
  ⟨{ s with fdManager := s.fdManager.cloneFds ord fromPid toPid }, [], .ok ()⟩

/-- Sectors in all, sectors in use, and bytes in all. -/
def handleDiskInfo (s : FileService) : Handled :=
  ⟨s, [.ok (.diskStats s.disk.totalSectors s.disk.usedSectorsCount (s.disk.totalSectors * 512))], .ok ()⟩

/-! ## Dispatch -/

/-- Requests that nobody waits for. -/
def handleFileRequest (s : FileService) (ord : HashOrder) : FileRequest → Handled
  | .open path flags => s.handleOpen 0 path flags
  | .close fd => s.handleClose 0 fd
  | .read fd _ _ size => s.handleRead 0 fd size
  | .write fd _ _ size => s.handleWrite 0 fd (List.replicate size 0)
  | .writeData fd data => s.handleWrite 0 fd data
  | .unlink path => s.handleDelete path
  | .stat path => s.handleStat path
  | .createDirectory path => s.handleMkdir 0 path
  | .removeDirectory path => s.handleRmdir path
  | .openDirectory path => s.handleListdir path
  | .readDirectory _ => ⟨s, [], .ok ()⟩
  | .closeDirectory _ => ⟨s, [], .ok ()⟩
  | .cloneFds fromPid toPid => s.handleCloneFds ord fromPid toPid
  | .listDir _ => ⟨s, [], .ok ()⟩
  | .diskInfo => ⟨s, [], .ok ()⟩
  | .other => ⟨s, [], .ok ()⟩

/-- Success is answered with no data. -/
def respondVoid (h : Handled) : Handled :=
  match h.result with
  | .ok () => { h with sent := h.sent ++ [.ok .void] }
  | .error _ => h

/-- Requests with a response channel. -/
def handleFileRequestWithResponse (s : FileService) (ord : HashOrder) : FileRequest → Handled
  | .open path flags => s.handleOpenWithResponse 0 path flags
  | .close fd => s.handleCloseWithResponse 0 fd
  | .read fd _ _ size => s.handleReadWithResponse 0 fd size
  | .write fd _ _ size => s.handleWriteWithResponse 0 fd (List.replicate size 0)
  | .writeData fd data => s.handleWriteWithResponse 0 fd data
  | .unlink path => respondVoid (s.handleDelete path)
  | .stat path => respondVoid (s.handleStat path)
  | .createDirectory path => respondVoid (s.handleMkdir 0 path)
  | .removeDirectory path => respondVoid (s.handleRmdir path)
  | .openDirectory path => respondVoid (s.handleListdir path)
  | .diskInfo => s.handleDiskInfo
  | .listDir path => s.handleListdirWithResponse path
  | .cloneFds fromPid toPid => respondVoid (s.handleCloneFds ord fromPid toPid)
  | .readDirectory _ => ⟨s, [.ok .void], .ok ()⟩
  | .closeDirectory _ => ⟨s, [.ok .void], .ok ()⟩
  | .other => ⟨s, [.ok .void], .ok ()⟩

/-- A request that expects an answer: a failure of the handler is answered once more. -/
def handleEnvelope (s : FileService) (ord : HashOrder) (req : FileRequest) : FileService × List Answer :=
  let handled := s.handleFileRequestWithResponse ord req
  match handled.result with
  | .ok () => (handled.service, handled.sent)
  | .error e => (handled.service, handled.sent ++ [.error (.other 1 e.display)])

theorem handleEnvelope_service (s : FileService) (ord : HashOrder) (req : FileRequest) :
    (s.handleEnvelope ord req).1 = (s.handleFileRequestWithResponse ord req).service := by
  simp only [handleEnvelope]
  split
  · rfl
  · rfl

/-! ## Panics -/

/-- The request stops the thread: a write of zeros makes its vector first, and a file that is found is read
or written with the sums and slices of the program. -/
def panics (s : FileService) : FileRequest → Bool
  | .read fd _ _ size => (s.fileOf 0 fd).any fun found => (found.2.readWords size).isNone
  | .write fd _ _ size => (zeroed size).isNone ||
      (s.fileOf 0 fd).any fun found => (found.2.writeWords (List.replicate size 0)).isNone
  | .writeData fd data => (s.fileOf 0 fd).any fun found => (found.2.writeWords data).isNone
  | _ => false

/-- A request that expects an answer, in the thread of the service. -/
def serve (s : FileService) (ord : HashOrder) (req : FileRequest) : Option (FileService × List Answer) :=
  if s.panics req then none else some (s.handleEnvelope ord req)

/-- A request that nobody waits for, in the thread of the service. -/
def serveMessage (s : FileService) (ord : HashOrder) (req : FileRequest) : Option FileService :=
  if s.panics req then none else some (s.handleFileRequest ord req).service

/-! ## Start -/

/-- A new service over a file system and a disk. -/
def new (vfs : VirtualFileSystem) (disk : SectorDisk) (maxFdsPerProcess : Nat) : FileService where
  vfs := vfs
  fdManager := FileDescriptorManager.new maxFdsPerProcess
  openFiles := ∅
  disk := disk

/-- Is the name one of a program or a text? -/
def isImported (fname : String) : Bool :=
  ".asm".toList.isSuffixOf fname.toList || ".txt".toList.isSuffixOf fname.toList

/-- The node that an imported file goes to, unless it has a run already. -/
def importNode (v : VirtualFileSystem) (fname : String) : Option Nat × VirtualFileSystem :=
  let vfsPath := "/programs" ++ "/" ++ fname
  match v.lookupPath vfsPath with
  | .ok node => (if node.blocks.isEmpty then some node.inode else none, v)
  | .error _ =>
    match v.lookupPath "/programs" with
    | .error _ => (none, v)
    | .ok parent =>
      match v.createFile parent.inode fname 0 with
      | (.error _, v') => (none, v')
      | (.ok _, v') =>
        match v'.lookupPath vfsPath with
        | .error _ => (none, v')
        | .ok node => (some node.inode, v')

/-- One file of the host. Its copy in memory is dropped once it is on disk. -/
def importFile (s : FileService) (host : String × List UInt8) : FileService :=
  if isImported host.1 = false then s
  else
    match importNode s.vfs host.1 with
    | (none, v) => { s with vfs := v }
    | (some inode, v) =>
      let file := ((File.new inode ("/programs" ++ "/" ++ host.1) .write).write host.2).2
      match file.syncToDisk s.disk with
      | (_, file', d) => { s with disk := d, vfs := recordRun v inode file' host.2.length }

/-- The files of the host, one after the other. -/
def importHostFiles (s : FileService) (hosts : List (String × List UInt8)) : FileService :=
  hosts.foldl importFile s

/-- The first start, on a new disk image, with the readable files of the host in the order found. -/
def boot (diskSize maxFdsPerProcess : Nat) (hosts : List (String × List UInt8)) : FileService :=
  (new VirtualFileSystem.new (SectorDisk.create (diskSize / 512 % 2 ^ 32)) maxFdsPerProcess).importHostFiles
    hosts

/-- A later start: the saved nodes and the same image. -/
def restart (s : FileService) (ord : HashOrder) : FileService :=
  new (VirtualFileSystem.loadFromFile (s.vfs.saveToFile ord)) s.disk.reopen s.fdManager.maxFdsPerProcess

end FileService

/-! ## Runs of the service -/

/-- A request as the main loop takes it from the channel: with or without a response channel, and
with the hash order that its handler happens to see. -/
structure FileEvent where
  ord : HashOrder
  req : FileRequest
  answered : Bool

/-- The service handles one request. One that stops the thread leaves the state as it is, so that the states
of a run are those of the program without such requests. -/
def FileService.take (s : FileService) (e : FileEvent) : FileService :=
  if s.panics e.req then s
  else if e.answered then (s.handleEnvelope e.ord e.req).1
  else (s.handleFileRequest e.ord e.req).service

/-- The request with its transition recorded. -/
def fileTransition (s : FileService) (e : FileEvent) :
    FileService × List (Transition FileService FileEvent) :=
  (s.take e, [⟨s, e, s.take e⟩])

/-- Every transition of a run is the handling of its request. -/
theorem fileTrace_step {s : FileService} {events : List FileEvent}
    {t : Transition FileService FileEvent} (h : t ∈ (runTrace fileTransition s events).2) :
    t.post = t.pre.take t.act :=
  (runTrace_single (fun _ _ => rfl) s events).2 t h

/-- What the requests of a run keep holds at its end and around each of them. -/
theorem fileTrace_invariant {I : FileService → Prop} {s : FileService} (h : I s) (events : List FileEvent)
    (hkeep : ∀ t ∈ (runTrace fileTransition s events).2, I t.pre → I (t.pre.take t.act)) :
    I (runTrace fileTransition s events).1 ∧
      ∀ t ∈ (runTrace fileTransition s events).2, I t.pre ∧ I t.post :=
  runTrace_single_invariant (fun _ _ => rfl) h events hkeep

end GenshinOs.Files
