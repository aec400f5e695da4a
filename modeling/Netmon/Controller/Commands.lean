import Netmon.Library.HashMap
import Netmon.Library.Run
import Netmon.Controller.Listing
import Netmon.Controller.ProcNet

/-! The controller: blocking, unblocking and rate limiting of processes. Every
call of nft may fail, and a call that fails changes nothing. -/
namespace Netmon.Controller
open Library

structure RuleRef where
  handle : Nat
deriving DecidableEq, Repr

structure World where
  ruleset : Ruleset
  rulesByPid : HashMap Nat (List RuleRef)

structure IoError where
  notFound : Bool
  text : Text
deriving DecidableEq, Repr

inductive Stage where
  | spawn
  | write
  | wait
deriving DecidableEq, Repr

inductive Reply where
  | failed (stage : Stage) (error : IoError)
  | refused (stdout stderr : Text)
  | accepted
deriving DecidableEq, Repr

inductive Command where
  | addTable
  | addChain
  | deleteRule (handle : Nat)
  | flushChain
deriving DecidableEq, Repr

def Command.effect : Command → Ruleset → Option Ruleset
  | .addTable, ruleset => some ruleset.addTable
  | .addChain, ruleset => ruleset.addChain
  | .deleteRule handle, ruleset => ruleset.deleteRule handle
  | .flushChain, ruleset => ruleset.flushChain

/-- How the host answers during one call of the controller. -/
structure Env where
  read : ProcFs
  reply : Command → Reply
  listBefore : Reply
  listAfter : Reply
  script : Reply
  /-- How many handles are skipped before a new rule. -/
  gap : Nat → Nat
  /-- The complaint of nft about a command that the state of the chain forbids. -/
  complaint : Text

abbrev Ctl := EStateM Text World

/-- One nft process: it takes effect when it is accepted and possible. -/
def spawn (complaint : Text) (reply : Reply) (effect : Ruleset → Option Ruleset) : Ctl Reply := fun world =>
  match reply with
  | .accepted =>
    match effect world.ruleset with
    | some ruleset => .ok .accepted { world with ruleset }
    | none => .ok (.refused [] complaint) world
  | other => .ok other world

def mapNftSpawnError (error : IoError) : Text :=
  if error.notFound then
    "Blocking failed: nft not found. Install with: sudo apt-get install nftables".toList
  else "failed to run nft: ".toList ++ error.text

def mapScriptError (stage : Stage) (error : IoError) : Text :=
  match stage with
  | .spawn => mapNftSpawnError error
  | .write => "failed writing nft ruleset to stdin: ".toList ++ error.text
  | .wait => "failed waiting on nft: ".toList ++ error.text

def fileExists : Text := "File exists".toList

def runNftCommand (env : Env) (command : Command) (ignoreExists : Bool) : Ctl Unit := do
  match ← spawn env.complaint (env.reply command) command.effect with
  | .accepted => return ()
  | .failed _ error => throw (mapNftSpawnError error)
  | .refused _ stderr =>
    if ignoreExists && contains stderr fileExists then return ()
    else throw ("nft command error: ".toList ++ stderr)

/-- A script is one transaction: its rules are added together or not at all. -/
def runNftScript (env : Env) (purpose : Purpose) (script : Text) : Ctl Unit := do
  let effect := fun ruleset => (readScript script).bind fun specs => ruleset.addRules env.gap purpose specs
  match ← spawn env.complaint env.script effect with
  | .accepted => return ()
  | .failed stage error => throw (mapScriptError stage error)
  | .refused stdout stderr =>
    throw ("nft failed. stdout: ".toList ++ stdout ++ ". stderr: ".toList ++ stderr)

def setupNftables (env : Env) : Ctl Unit := do
  runNftCommand env .addTable true
  runNftCommand env .addChain true

def pidMarker (pid : Nat) : Text := ruleCommentPrefix ++ decimal pid ++ "-".toList
def rateLimitMarker (pid : Nat) : Text := pidMarker pid ++ "rate-limit".toList

section Handles
variable (nft : Listing) (env : Env)

def findHandles (reply : Reply) (marker : Text) : Ctl (List Nat) := do
  match reply with
  | .failed _ error => throw ("failed to run nft list -a: ".toList ++ error.text)
  | .refused _ stderr => throw ("nft list -a failed: ".toList ++ stderr)
  | .accepted =>
    let world ← get
    if world.ruleset.chain then return markedHandles marker (nft.text world.ruleset)
    else throw ("nft list -a failed: ".toList ++ env.complaint)

def findRuleHandlesForPid (reply : Reply) (pid : Nat) : Ctl (List Nat) :=
  findHandles nft env reply (pidMarker pid)

/-- With the only suffix it is called with, `rate-limit`. -/
def findRuleHandlesForPidComment (reply : Reply) (pid : Nat) : Ctl (List Nat) :=
  findHandles nft env reply (rateLimitMarker pid)

/-- The handles tracked under a key, which are tracked no longer, or else those a search finds. -/
def takeHandles (key : Nat) (search : Ctl (List Nat)) : Ctl (List Nat) := do
  let world ← get
  let tracked := (world.rulesByPid.lookup key).getD []
  set { world with rulesByPid := world.rulesByPid.erase key }
  let handles := tracked.map RuleRef.handle
  if handles.isEmpty then search else return handles

def removeRules (key : Nat) (search : Ctl (List Nat)) : Ctl Unit := do
  let handles ← takeHandles key search
  handles.forM fun handle => runNftCommand env (.deleteRule handle) false

def unblockProcess (pid : Nat) : Ctl Unit :=
  removeRules env pid (findRuleHandlesForPid nft env env.listBefore pid)

def rateLimitSentinel (pid : Nat) : Nat := pid ||| 0x80000000

def removeRateLimitRulesForPid (pid : Nat) : Ctl Unit :=
  removeRules env (rateLimitSentinel pid) (findRuleHandlesForPidComment nft env env.listBefore pid)

def blockComment (pid : Nat) (processName : Text) : Text := pidMarker pid ++ replace '"' '_' processName

def noPortsError (pid : Nat) : Text := "No TCP/UDP ports and could not read UID for PID ".toList ++ decimal pid

def portScript (pid : Nat) (limit : Option Nat) (comment : Text) : Except Text Text :=
  let tcpPorts := collectPidPorts env.read pid tcpFiles
  let udpPorts := collectPidPorts env.read pid udpFiles
  let uid := readUidForPid env.read pid
  if tcpPorts.isEmpty && udpPorts.isEmpty then
    match uid with
    | some uid => .ok (skuidRule uid limit comment)
    | none => .error (noPortsError pid)
  else .ok (portRuleset tcpPorts udpPorts limit comment)

def orThrow {α : Type} : Except Text α → Ctl α
  | .ok value => pure value
  | .error error => throw error

def insertRules (purpose : Purpose) (key : Nat) (script : Except Text Text) (search : Ctl (List Nat))
    (noHandles : Text) : Ctl Unit := do
  let rules ← orThrow script
  runNftScript env purpose rules
  let handles ← search
  if handles.isEmpty then throw noHandles
  modify fun world => { world with rulesByPid := world.rulesByPid.insert key (handles.map RuleRef.mk) }

def blockProcess (pid : Nat) (processName : Text) : Ctl Unit := do
  attempt (setupNftables env)
  attempt (unblockProcess nft env pid)
  insertRules env (.block pid) pid (portScript env pid none (blockComment pid processName))
    (findRuleHandlesForPid nft env env.listAfter pid)
    "Inserted rules but could not find nft handles".toList

def rateLimitProcess (pid : Nat) (rateKbps : UInt32) : Ctl Unit := do
  attempt (setupNftables env)
  removeRateLimitRulesForPid nft env pid
  insertRules env (.rateLimit pid) (rateLimitSentinel pid)
    (portScript env pid (some rateKbps.toNat) (rateLimitMarker pid))
    (findRuleHandlesForPidComment nft env env.listAfter pid)
    "Inserted rate-limit rules but could not find nft handles".toList

def unblockAll : Ctl Unit := do
  runNftCommand env .flushChain false
  modify fun world => { world with rulesByPid := ∅ }

end Handles
end Netmon.Controller
