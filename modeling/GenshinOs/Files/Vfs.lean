import GenshinOs.Lib.HashMap
import GenshinOs.Messaging

/-!
# Virtual file system

The tree of files and directories (`src/services/file/vfs.rs`): nodes by inode number, with the names
of a directory's children and the sectors of a file. A node that is created is entered before its
parent accepts it, and stays when the parent does not. Saving writes the nodes in some order; loading
starts from a new tree and puts the saved nodes over it. Permissions and times are never read and are
left out, and so are the mount points.
-/

set_option autoImplicit false

namespace GenshinOs.Files

open GenshinOs.Lib

/-- Kinds of nodes. Only files and directories are ever made. -/
inductive NodeType where
  | file
  | directory
  | symLink
  | blockDevice
  | charDevice
  deriving DecidableEq, Repr

/-- A file or directory. -/
structure VFSNode where
  inode : Nat
  nodeType : NodeType
  name : String
  parent : Option Nat
  owner : Pid
  size : Nat
  blocks : List Nat
  children : HashMap String Nat
  refCount : Nat
  deleted : Bool

namespace VFSNode

/-- A new node, without bytes, children and references. -/
def new (inode : Nat) (name : String) (nodeType : NodeType) (parent : Option Nat) (owner : Pid) :
    VFSNode where
  inode := inode
  nodeType := nodeType
  name := name
  parent := parent
  owner := owner
  size := 0
  blocks := []
  children := ∅
  refCount := 0
  deleted := false

/-- Can it have children? -/
def isDirectory (n : VFSNode) : Bool := n.nodeType == .directory

/-- Can it have bytes? -/
def isFile (n : VFSNode) : Bool := n.nodeType == .file

/-- Enter a child under a new name. Only a directory takes one. -/
def addChild (n : VFSNode) (name : String) (inode : Nat) : Except ServiceError VFSNode :=
  if n.isDirectory = false then .error (.invalidArguments "node" "Not a directory")
  else if (n.children.lookup name).isSome then .error (.invalidArguments "name" "Child already exists")
  else .ok { n with children := n.children.insert name inode }

/-- Remove the entry under a name. -/
def removeChild (n : VFSNode) (name : String) : Except ServiceError VFSNode :=
  if n.isDirectory = false then .error (.invalidArguments "node" "Not a directory")
  else if (n.children.lookup name).isNone then .error (.notFound "Child" name)
  else .ok { n with children := n.children.erase name }

/-- The child under a name. -/
def getChild (n : VFSNode) (name : String) : Option Nat := n.children.lookup name

/-- An empty directory, or no directory at all. -/
def hasNoChildren (n : VFSNode) : Bool := n.children.keys.isEmpty

/-- A file can be deleted when nobody has a reference to it, a directory when it is empty. -/
def canDelete (n : VFSNode) : Bool :=
  (n.refCount == 0 && !n.isDirectory) || (n.isDirectory && n.hasNoChildren)

end VFSNode

/-- All nodes, and the number that the next one gets. -/
structure VirtualFileSystem where
  nodes : HashMap Nat VFSNode
  nextInode : Nat
  rootInode : Nat

/-- The parts of a path between slashes, empty ones dropped. -/
def pathComponents (path : String) : List String :=
  ((path.toList.splitOn '/').filter (· ≠ [])).map String.ofList

namespace VirtualFileSystem

/-- The node of an inode. -/
def lookup (v : VirtualFileSystem) (inode : Nat) : Option VFSNode := v.nodes.lookup inode

/-- Store a node under its inode. -/
def setNode (v : VirtualFileSystem) (inode : Nat) (node : VFSNode) : VirtualFileSystem :=
  { v with nodes := v.nodes.insert inode node }

/-- A new node, entered under its parent if there is one. -/
def createNode (v : VirtualFileSystem) (nodeType : NodeType) (parent : Nat) (name : String)
    (owner : Pid) : Except ServiceError Nat × VirtualFileSystem :=
  let inode := v.nextInode
  let entered := { v with
    nodes := v.nodes.insert inode (VFSNode.new inode name nodeType (some parent) owner)
    nextInode := v.nextInode + 1 }
  match entered.lookup parent with
  | none => (.ok inode, entered)
  | some parentNode =>
    match parentNode.addChild name inode with
    | .error e => (.error e, entered)
    | .ok parentNode' => (.ok inode, entered.setNode parent parentNode')

/-- A new file under a parent. -/
def createFile (v : VirtualFileSystem) (parent : Nat) (name : String) (owner : Pid) :
    Except ServiceError Nat × VirtualFileSystem := v.createNode .file parent name owner

/-- A new directory under a parent. -/
def createDirectory (v : VirtualFileSystem) (parent : Nat) (name : String) (owner : Pid) :
    Except ServiceError Nat × VirtualFileSystem := v.createNode .directory parent name owner

/-- The directories that a new file system has below its root. -/
def standardDirectories : List String := ["bin", "home", "tmp", "etc", "var", "examples", "programs"]

/-- The programs that a new file system has entries for. -/
def programFiles : List String :=
  ["add.asm", "busy.asm", "cat.asm", "count.asm", "divide.asm", "exec.asm", "fork.asm", "hello.asm",
    "init.asm", "loop.asm", "ls.asm", "mkdir.asm", "multiply.asm", "pf.asm", "rm.asm", "stat.asm",
    "sub.asm", "swaptest.asm", "touch.asm", "tree.asm", "write.asm"]

/-- The root alone. -/
def rootOnly : VirtualFileSystem where
  nodes := AList.insert 0 (VFSNode.new 0 "/" .directory none 0) ∅
  nextInode := 1
  rootInode := 0

/-- The root with the standard directories. -/
def withDirectories : VirtualFileSystem :=
  standardDirectories.foldl (fun v name => (v.createDirectory 0 name 0).2) rootOnly

/-- A new file system: the root, the standard directories and an entry for each program. -/
def new : VirtualFileSystem :=
  match (withDirectories.lookup 0).bind fun root => root.getChild "programs" with
  | some programs =>
    programFiles.foldl (fun v name => (v.createFile programs name 0).2) withDirectories
  | none => withDirectories

/-- Follow the names from a node on. -/
def walk (v : VirtualFileSystem) : Nat → List String → Except ServiceError Nat
  | inode, [] => .ok inode
  | inode, component :: rest =>
    match v.lookup inode with
    | none => .error (.notFound "Inode" (toString inode))
    | some node =>
      match node.getChild component with
      | some child => v.walk child rest
      | none => .error (.notFound "Path component" component)

/-- The node of a path. An empty path leads to the root, as `/` does. -/
def lookupPath (v : VirtualFileSystem) (path : String) : Except ServiceError VFSNode :=
  if path.isEmpty ∨ path = "/" then
    match v.lookup v.rootInode with
    | some node => .ok node
    | none => .error (.notFound "Root" (toString v.rootInode))
  else
    match v.walk v.rootInode (pathComponents path) with
    | .error e => .error e
    | .ok inode =>
      match v.lookup inode with
      | some node => .ok node
      | none => .error (.notFound "Inode" (toString inode))

/-- The node leaves its parent, whatever the parent has under its name. -/
def unlinkFrom (v : VirtualFileSystem) (parent : Option Nat) (name : String) : VirtualFileSystem :=
  match parent with
  | none => v
  | some parentInode =>
    match v.lookup parentInode with
    | none => v
    | some parentNode =>
      match parentNode.removeChild name with
      | .error _ => v
      | .ok parentNode' => v.setNode parentInode parentNode'

/-- Delete a node that can be deleted. While there are references it stays, marked as deleted. -/
def delete (v : VirtualFileSystem) (inode : Nat) : Except ServiceError Unit × VirtualFileSystem :=
  match v.lookup inode with
  | none => (.error (.notFound "Inode" (toString inode)), v)
  | some node =>
    if node.canDelete = false then
      (.error (.invalidArguments "inode" "Node cannot be deleted"), v)
    else
      let unlinked := v.unlinkFrom node.parent node.name
      if node.refCount = 0 then
        (.ok (), { unlinked with nodes := unlinked.nodes.erase inode })
      else (.ok (), unlinked.setNode inode { node with deleted := true })

/-! ## Saving and loading -/

/-- What is saved of a node. -/
structure SavedNode where
  inode : Nat
  nodeType : NodeType
  name : String
  parent : Option Nat
  size : Nat
  children : HashMap String Nat
  blocks : List Nat

/-- Owner, references and the mark of deletion are not saved. -/
def savedNode (n : VFSNode) : SavedNode :=
  ⟨n.inode, n.nodeType, n.name, n.parent, n.size, n.children, n.blocks⟩

/-- The nodes in iteration order. -/
def saveToFile (v : VirtualFileSystem) (ord : HashOrder) : List SavedNode :=
  (HashMap.iter ord v.nodes).map fun e => savedNode e.2

/-- A saved node without its children. -/
def loadedNode (n : SavedNode) : VFSNode where
  inode := n.inode
  nodeType := n.nodeType
  name := n.name
  parent := n.parent
  owner := 0
  size := n.size
  blocks := n.blocks
  children := ∅
  refCount := 0
  deleted := false

/-- First pass: all nodes but the root. -/
def loadNode (v : VirtualFileSystem) (n : SavedNode) : VirtualFileSystem :=
  if n.inode = 0 then v
  else
    { v with
      nodes := v.nodes.insert n.inode (loadedNode n)
      nextInode := if n.inode ≥ v.nextInode then n.inode + 1 else v.nextInode }

/-- Second pass: the children. -/
def loadChildren (v : VirtualFileSystem) (n : SavedNode) : VirtualFileSystem :=
  { v with nodes := HashMap.adjust v.nodes n.inode fun node => { node with children := n.children } }

/-- The saved nodes come over the ones of a new file system. -/
def loadFromFile (saved : List SavedNode) : VirtualFileSystem :=
  saved.foldl loadChildren (saved.foldl loadNode new)

end VirtualFileSystem

end GenshinOs.Files
