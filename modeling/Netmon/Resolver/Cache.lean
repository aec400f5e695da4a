import Netmon.Capture.Packet
import Netmon.Library.Run
import Netmon.Resolver.PidMap
import Netmon.Resolver.ProcFallback
import Netmon.Resolver.Process

/-! The resolver's cache: sockets from netlink or from `/proc/net`, joined with the
threads found in `/proc`. Every answer of the outside is an argument of the call,
and so is the order in which a hash map is walked. -/
namespace Netmon.Resolver
open Library Capture

/-- In nanoseconds. -/
def resolverRefreshPeriod : Int := 10^9

def unknownLabel : Text := "[unknown]".toList

inductive ResolverError where
  | io (error : Text)
  | fallback (message : Text)
deriving DecidableEq, Repr

def ResolverError.display : ResolverError → Text
  | .io error => "io error: ".toList ++ error
  | .fallback message => "fallback resolver error: ".toList ++ message

/-- Why a call does not return. A caller that ignores errors still panics. -/
inductive Halt where
  | error (error : ResolverError)
  | panic (panic : Panic)
  | blocked
deriving DecidableEq, Repr

abbrev UidMap := HashMap Nat Text

structure ResolverCache where
  uidMap : UidMap
  inodeToProcess : HashMap Nat ProcessInfo
  socketEntries : SocketsByInode
  connections : List ResolvedConnection
  lastRefresh : Int

/-- A line of `/etc/passwd`; one that cannot be read is skipped. -/
def recordUid (uidMap : UidMap) (lineResult : Option Text) : UidMap :=
  match lineResult with
  | none => uidMap
  | some line =>
    let parts := line.splitOn ':'
    if parts.length < 3 then uidMap
    else
      match parseU32 (parts.getD 2 []) with
      | some uid => uidMap.insert uid (parts.getD 0 [])
      | none => uidMap

def loadUidMap (passwd : Except Text (List (Option Text))) : Except ResolverError UidMap :=
  match passwd with
  | .error error => .error (.io error)
  | .ok lineResults => .ok (lineResults.foldl recordUid ∅)

def ResolverCache.empty (uidMap : UidMap) (now : Int) : ResolverCache where
  uidMap := uidMap
  inodeToProcess := ∅
  socketEntries := ∅
  connections := []
  lastRefresh := now - 5 * 10^9

def ResolverCache.new (passwd : Except Text (List (Option Text))) (now : Int) : Except ResolverError ResolverCache := do
  return .empty (← loadUidMap passwd) now

section Join
variable (inodePidMap : InodePidMap) (uidMap : UidMap)

def usernameOf (uid : Nat) : Text := (uidMap.lookup uid).getD unknownLabel

def processInfoOf (inode : Nat) : ProcessInfo :=
  match inodePidMap.lookup inode with
  | some owner => {
      pid := owner.pid
      tid := owner.tid
      name := owner.processName
      threadName := owner.threadName
      uid := owner.uid
      username := usernameOf uidMap owner.uid }
  | none => {
      pid := 0
      tid := 0
      name := unknownLabel
      threadName := unknownLabel
      uid := 0
      username := unknownLabel }

def connectionOf (socketEntry : SocketEntry) : ResolvedConnection :=
  let defaultUid := socketEntry.uid
  let owner := (inodePidMap.lookup socketEntry.inode).getD ⟨0, 0, unknownLabel, unknownLabel, defaultUid⟩
  { localAddr := socketEntry.localAddr
    remoteAddr := socketEntry.remoteAddr
    protocol := socketEntry.protocol
    state := socketEntry.state
    inode := socketEntry.inode
    pid := owner.pid
    tid := owner.tid
    process := owner.processName
    threadName := owner.threadName
    uid := owner.uid
    username := usernameOf uidMap owner.uid }

variable (order : HashMap.Iteration Nat SocketEntry) (socketEntries : SocketsByInode)

def buildInodeProcessMap : HashMap Nat ProcessInfo :=
  (order.keys socketEntries).foldl (fun map inode => map.insert inode (processInfoOf inodePidMap uidMap inode)) ∅

def buildConnections : List ResolvedConnection :=
  (order.values socketEntries).map (connectionOf inodePidMap uidMap)

end Join

/-- What the outside answers to one call. -/
structure Outside where
  host : Endian
  netlink : Except Text NetlinkSocket
  procNet : Text → Except Text Text
  proc : ProcTree
  /-- The order in which the new table is walked, once for its keys and once for its values. -/
  keyOrder : HashMap.Iteration Nat SocketEntry
  valueOrder : HashMap.Iteration Nat SocketEntry
  /-- The clock when the age of the cache is tested, and after a refresh. -/
  checked : Int
  refreshed : Int

/-- The sockets of one attempt; a partial dump is dropped with its error. -/
def socketInodes (outside : Outside) : Except Halt SocketsByInode :=
  match querySockets outside.host outside.netlink with
  | .ok inodes => .ok inodes
  | .error (.panic panic) => .error (.panic panic)
  | .error .blocked => .error .blocked
  | .error (.error _) =>
    match readProcNet outside.procNet with
    | .ok inodes => .ok inodes
    | .error (.panic panic) => .error (.panic panic)
    | .error (.error fallbackError) => .error (.error (.fallback fallbackError.message))

abbrev Resolving := EStateM Halt ResolverCache

def ResolverCache.installed (cache : ResolverCache) (outside : Outside) (inodes : SocketsByInode) : ResolverCache :=
  let inodePidMap := buildInodePidMap outside.proc
  { cache with
    socketEntries := inodes
    inodeToProcess := buildInodeProcessMap inodePidMap cache.uidMap outside.keyOrder inodes
    connections := buildConnections inodePidMap cache.uidMap outside.valueOrder inodes
    lastRefresh := outside.refreshed }

def refresh (outside : Outside) : Resolving Unit := fun cache =>
  match socketInodes outside with
  | .error halt => .error halt cache
  | .ok inodes => .ok () (cache.installed outside inodes)

/-- `Instant::elapsed` does not go below zero. -/
def isFresh (cache : ResolverCache) (checked : Int) : Bool :=
  max (checked - cache.lastRefresh) 0 < resolverRefreshPeriod

def refreshIfNeeded (outside : Outside) : Resolving Unit := do
  if isFresh (← get) outside.checked then return ()
  refresh outside

/-- `let _ = action;` drops an error. -/
def ignoreError (action : Resolving Unit) : Resolving Unit := fun cache =>
  match action cache with
  | .error (.error _) next => .ok () next
  | result => result

def flowMatches (flow : FlowKey) (socketEntry : SocketEntry) : Bool :=
  let forwardMatch := socketEntry.localAddr.ip == flow.srcIp && socketEntry.localAddr.port == flow.srcPort &&
    socketEntry.remoteAddr.ip == flow.dstIp && socketEntry.remoteAddr.port == flow.dstPort
  let reverseMatch := socketEntry.localAddr.ip == flow.dstIp && socketEntry.localAddr.port == flow.dstPort &&
    socketEntry.remoteAddr.ip == flow.srcIp && socketEntry.remoteAddr.port == flow.srcPort
  forwardMatch || reverseMatch

/-- The loop over the sockets, in the order of the walk. -/
def ownerAmong (inodeToProcess : HashMap Nat ProcessInfo) (flow : FlowKey) : List SocketEntry → Option ProcessInfo
  | [] => none
  | socketEntry :: rest =>
    if socketEntry.protocol ≠ flow.protocol then ownerAmong inodeToProcess flow rest
    else if !flowMatches flow socketEntry then ownerAmong inodeToProcess flow rest
    else
      match inodeToProcess.lookup socketEntry.inode with
      | some info => some info
      | none => ownerAmong inodeToProcess flow rest

def resolveFlowOwner (outside : Outside) (order : HashMap.Iteration Nat SocketEntry) (flow : FlowKey) :
    Resolving (Option ProcessInfo) := do
  ignoreError (refreshIfNeeded outside)
  let cache ← get
  return ownerAmong cache.inodeToProcess flow (order.values cache.socketEntries)

def listConnections (outside : Outside) : Resolving (List ResolvedConnection) := do
  ignoreError (refreshIfNeeded outside)
  return (← get).connections

def processByPid (outside : Outside) (order : HashMap.Iteration Nat ProcessInfo) (pid : Nat) :
    Resolving (Option ProcessInfo) := do
  ignoreError (refreshIfNeeded outside)
  return (order.values (← get).inodeToProcess).find? fun info => info.pid == pid

inductive Call where
  | refresh (outside : Outside)
  | refreshIfNeeded (outside : Outside)
  | resolveFlowOwner (outside : Outside) (order : HashMap.Iteration Nat SocketEntry) (flow : FlowKey)
  | listConnections (outside : Outside)
  | processByPid (outside : Outside) (order : HashMap.Iteration Nat ProcessInfo) (pid : Nat)

def Call.outside : Call → Outside
  | .refresh outside => outside
  | .refreshIfNeeded outside => outside
  | .resolveFlowOwner outside .. => outside
  | .listConnections outside => outside
  | .processByPid outside .. => outside

def step (cache : ResolverCache) : Call → ResolverCache
  | .refresh outside => finalState (refresh outside) cache
  | .refreshIfNeeded outside => finalState (refreshIfNeeded outside) cache
  | .resolveFlowOwner outside order flow => finalState (resolveFlowOwner outside order flow) cache
  | .listConnections outside => finalState (listConnections outside) cache
  | .processByPid outside order pid => finalState (processByPid outside order pid) cache

end Netmon.Resolver
