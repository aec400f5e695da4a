import Netmon.Library.Tokens
import Netmon.Controller.Ruleset
import Std.Data.TreeSet.Lemmas

/-! The scripts piped into `nft -f -`: their text, as the controller builds it,
and the rules nft reads from them. -/
namespace Netmon.Controller
open Library

def nftTableName : Text := "filter".toList
def nftFamily : Text := "inet".toList
def nftOutputChain : Text := "output".toList
def ruleCommentPrefix : Text := "netmon-pid-".toList

abbrev PortSet := Std.TreeSet UInt16 compare

def addRulePrefix : Text :=
  "add rule ".toList ++ nftFamily ++ " ".toList ++ nftTableName ++ " ".toList ++ nftOutputChain ++ " ".toList

def joinPorts (ports : PortSet) : Text :=
  ", ".toList.intercalate (ports.toList.map fun port => decimal port.toNat)

def limitText : Option Nat → Text
  | none => []
  | some rateKbps => " limit rate over ".toList ++ decimal rateKbps ++ " kbytes/second".toList

def commentText (comment : Text) : Text := " comment \"".toList ++ comment ++ "\" drop\n".toList

def sportRule (protocol : Text) (ports : PortSet) (limit : Option Nat) (comment : Text) : Text :=
  addRulePrefix ++ protocol ++ " sport \x7b ".toList ++ joinPorts ports ++ " \x7d".toList ++
    limitText limit ++ commentText comment

def skuidRule (uid : Nat) (limit : Option Nat) (comment : Text) : Text :=
  addRulePrefix ++ "meta skuid ".toList ++ decimal uid ++ limitText limit ++ commentText comment

def portRuleset (tcpPorts udpPorts : PortSet) (limit : Option Nat) (comment : Text) : Text :=
  (if tcpPorts.isEmpty then [] else sportRule "tcp".toList tcpPorts limit comment) ++
    (if udpPorts.isEmpty then [] else sportRule "udp".toList udpPorts limit comment)

def buildBlockRuleset (tcpPorts udpPorts : PortSet) (comment : Text) : Text :=
  portRuleset tcpPorts udpPorts none comment

def buildRateLimitRuleset (tcpPorts udpPorts : PortSet) (comment : Text) (rateKbps : Nat) : Text :=
  portRuleset tcpPorts udpPorts (some rateKbps) comment

def isMark (c : Char) : Bool := c == '\n' || c == ',' || c == '\x7b' || c == '\x7d'

def wordTokens (words : List String) : List Token := words.map fun word => .word word.toList

def readProtocol (text : Text) : Option Protocol :=
  if text = "tcp".toList then some .tcp
  else if text = "udp".toList then some .udp
  else none

def readPorts : List Token → Option (List UInt16 × List Token)
  | .word port :: .mark c :: rest =>
    match fromStrRadix 10 65535 port with
    | none => none
    | some n =>
      if c = ',' then (readPorts rest).map fun read => (UInt16.ofNat n :: read.1, read.2)
      else if c = '\x7d' then some ([UInt16.ofNat n], rest)
      else none
  | _ => none

def readSelector : List Token → Option (Selector × List Token)
  | .word protocol :: .word field :: .mark '\x7b' :: rest =>
    if field = "sport".toList then do
      let protocol ← readProtocol protocol
      let (ports, rest) ← readPorts rest
      some (.sport protocol ports, rest)
    else none
  | .word first :: .word second :: .word uid :: rest =>
    if first = "meta".toList ∧ second = "skuid".toList then
      (parseU32 uid).map fun uid => (.skuid uid, rest)
    else none
  | _ => none

def readLimit : List Token → Option (Option Nat × List Token)
  | .word limit :: .word rate :: .word preposition :: .word value :: .word unit :: rest =>
    if [limit, rate, preposition, unit] = ["limit", "rate", "over", "kbytes/second"].map String.toList then
      (parseU64 value).map fun value => (some value, rest)
    else none
  | rest => some (none, rest)

def readComment : List Token → Option Text
  | [.word key, .quoted comment, .word verdict] =>
    if key = "comment".toList ∧ verdict = "drop".toList then some comment else none
  | _ => none

def readCommand (command : List Token) : Option RuleSpec :=
  if command.take 5 = wordTokens ["add", "rule", "inet", "filter", "output"] then do
    let (selector, rest) ← readSelector (command.drop 5)
    let (limit, rest) ← readLimit rest
    let comment ← readComment rest
    some ⟨selector, limit, comment⟩
  else none

/-- The rules of a script, when it is a sequence of commands that each add one. -/
def readScript (script : Text) : Option (List RuleSpec) :=
  (commandsFrom (.mark '\n') [] (tokens isMark script)).mapM readCommand

theorem decimal_plain (n : Nat) : IsPlain isMark (decimal n) := by
  intro c member
  have digit := decimal_isDigit member
  refine ⟨?_, ?_, ?_⟩
  · rintro rfl
    simp at digit
  · rintro rfl
    simp at digit
  · simp only [isMark, Bool.or_eq_false_iff, beq_eq_false_iff_ne]
    refine ⟨⟨⟨?_, ?_⟩, ?_⟩, ?_⟩ <;> (rintro rfl; simp at digit)

def portTokens : List UInt16 → List Token
  | [] => []
  | [port] => [.word (decimal port.toNat)]
  | port :: next :: rest => .word (decimal port.toNat) :: .mark ',' :: portTokens (next :: rest)

theorem tokens_ports (ports : List UInt16) (filled : ports ≠ []) (rest : Text) :
    tokens isMark (", ".toList.intercalate (ports.map fun port => decimal port.toNat) ++ ' ' :: rest) =
      portTokens ports ++ tokens isMark rest := by
  induction ports with
  | nil => exact absurd rfl filled
  | cons port ports ih =>
    cases ports with
    | nil =>
      simp only [List.map_cons, List.map_nil, List.intercalate_singleton]
      exact tokens_word isMark (decimal_ne_nil _) (decimal_plain _) rest
    | cons next ports =>
      have tail := ih (by simp)
      have comma : ", ".toList = ',' :: [' '] := rfl
      rw [List.map_cons] at tail
      rw [List.map_cons, List.map_cons, List.intercalate_cons_cons]
      simp only [comma, List.append_assoc, List.cons_append, List.nil_append] at tail ⊢
      rw [tokens_word_mark isMark (decimal_ne_nil _) (decimal_plain _) rfl (by decide) (by decide)]
      exact congrArg (fun back => Token.word (decimal port.toNat) :: .mark ',' :: back) tail

theorem readPorts_tokens (ports : List UInt16) (filled : ports ≠ []) (rest : List Token) :
    readPorts (portTokens ports ++ .mark '\x7d' :: rest) = some (ports, rest) := by
  have each (port : UInt16) : fromStrRadix 10 65535 (decimal port.toNat) = some port.toNat :=
    fromStrRadix_decimal 65535 _ (by have := port.toNat_lt; omega)
  induction ports with
  | nil => exact absurd rfl filled
  | cons port ports ih =>
    cases ports with
    | nil => simp [portTokens, readPorts, each]
    | cons next ports => simp [portTokens, readPorts, each, ih]

def limitTokens : Option Nat → List Token
  | none => []
  | some rateKbps => wordTokens ["limit", "rate", "over"] ++
      [.word (decimal rateKbps), .word "kbytes/second".toList]

section Literals
variable (rest : Text)

theorem tokens_addRule : tokens isMark (addRulePrefix ++ rest) =
    wordTokens ["add", "rule", "inet", "filter", "output"] ++ tokens isMark rest := rfl

theorem tokens_sport : tokens isMark ("sport \x7b ".toList ++ rest) =
    .word "sport".toList :: .mark '\x7b' :: tokens isMark rest := rfl

theorem tokens_brace : tokens isMark ('\x7d' :: ' ' :: rest) = .mark '\x7d' :: tokens isMark rest := rfl

theorem tokens_metaSkuid : tokens isMark ("meta skuid ".toList ++ rest) =
    .word "meta".toList :: .word "skuid".toList :: tokens isMark rest := rfl

theorem tokens_limit : tokens isMark ("limit rate over ".toList ++ rest) =
    wordTokens ["limit", "rate", "over"] ++ tokens isMark rest := rfl

theorem tokens_unit : tokens isMark ("kbytes/second ".toList ++ rest) =
    .word "kbytes/second".toList :: tokens isMark rest := rfl

theorem tokens_comment : tokens isMark ("comment ".toList ++ rest) =
    .word "comment".toList :: tokens isMark rest := rfl

theorem tokens_drop : tokens isMark (" drop\n".toList ++ rest) =
    .word "drop".toList :: .mark '\n' :: tokens isMark rest := rfl

end Literals

theorem tokens_tail (limit : Option Nat) (comment rest : Text) (closed : '"' ∉ comment) :
    ∃ tail : Text, limitText limit ++ (commentText comment ++ rest) = ' ' :: tail ∧
      tokens isMark tail = limitTokens limit ++ (.word "comment".toList :: .quoted comment ::
        .word "drop".toList :: .mark '\n' :: tokens isMark rest) := by
  obtain ⟨behind, shape, read⟩ : ∃ behind : Text, commentText comment ++ rest = ' ' :: behind ∧
      tokens isMark behind = .word "comment".toList :: .quoted comment :: .word "drop".toList ::
        .mark '\n' :: tokens isMark rest := by
    refine ⟨"comment ".toList ++ ('"' :: comment ++ '"' :: (" drop\n".toList ++ rest)), ?_, ?_⟩
    · unfold commentText
      simp
    · rw [tokens_comment, tokens_quoted isMark closed, tokens_drop]
  cases limit with
  | none => exact ⟨behind, shape, read⟩
  | some rateKbps =>
    refine ⟨"limit rate over ".toList ++ (decimal rateKbps ++ ' ' :: ("kbytes/second ".toList ++ behind)), ?_, ?_⟩
    · rw [shape]
      unfold limitText
      simp
    · rw [tokens_limit, tokens_word isMark (decimal_ne_nil rateKbps) (decimal_plain rateKbps), tokens_unit, read]
      rfl

def endTokens (limit : Option Nat) (comment : Text) : List Token :=
  limitTokens limit ++ [.word "comment".toList, .quoted comment, .word "drop".toList]

theorem readCommand_endTokens {body : List Token} {selector : Selector} {limit : Option Nat} {comment : Text}
    (bound : ∀ rateKbps ∈ limit, rateKbps < 2^64)
    (selected : readSelector body = some (selector, endTokens limit comment)) :
    readCommand (wordTokens ["add", "rule", "inet", "filter", "output"] ++ body) =
      some ⟨selector, limit, comment⟩ := by
  have limited : readLimit (endTokens limit comment) =
      some (limit, [.word "comment".toList, .quoted comment, .word "drop".toList]) := by
    cases limit with
    | none => rfl
    | some rateKbps =>
      have value := parseU64_decimal (bound rateKbps rfl)
      simp only [endTokens, limitTokens, wordTokens, List.map_cons, List.map_nil, List.cons_append,
        List.nil_append, readLimit, value, if_true, Option.map_some]
  have front : (wordTokens ["add", "rule", "inet", "filter", "output"] ++ body).take 5 =
      wordTokens ["add", "rule", "inet", "filter", "output"] := rfl
  have back : (wordTokens ["add", "rule", "inet", "filter", "output"] ++ body).drop 5 = body := rfl
  rw [readCommand, if_pos front, back, selected]
  simp only [Option.bind_eq_bind, Option.bind_some, limited]
  rfl

theorem readScript_command {command rest : Text} (words : List Token) {spec : RuleSpec}
    (lexed : tokens isMark (command ++ rest) = words ++ .mark '\n' :: tokens isMark rest)
    (whole : .mark '\n' ∉ words) (read : readCommand words = some spec) :
    readScript (command ++ rest) = (readScript rest).map (spec :: ·) := by
  rw [readScript, lexed, commandsFrom_append (.mark '\n') [] words _ whole, List.nil_append, List.mapM_cons, read]
  simp only [readScript]
  cases (commandsFrom (.mark '\n') [] (tokens isMark rest)).mapM readCommand <;> rfl

theorem newline_not_mem_ports (ports : List UInt16) : Token.mark '\n' ∉ portTokens ports := by
  induction ports with
  | nil => simp [portTokens]
  | cons port ports ih =>
    cases ports with
    | nil => simp [portTokens]
    | cons next ports => simpa [portTokens] using ih

theorem newline_not_mem_end (limit : Option Nat) (comment : Text) :
    Token.mark '\n' ∉ endTokens limit comment := by
  cases limit <;> simp [endTokens, limitTokens, wordTokens]

/-- The tokens of a rule on source ports, without the end of its line. -/
def sportTokens (name : Text) (ports : List UInt16) (limit : Option Nat) (comment : Text) : List Token :=
  wordTokens ["add", "rule", "inet", "filter", "output"] ++ (.word name :: .word "sport".toList :: .mark '\x7b' ::
    (portTokens ports ++ .mark '\x7d' :: endTokens limit comment))

theorem newline_not_mem_sportTokens (name : Text) (ports : List UInt16) (limit : Option Nat) (comment : Text) :
    Token.mark '\n' ∉ sportTokens name ports limit comment := by
  simp [sportTokens, newline_not_mem_ports, newline_not_mem_end, wordTokens]

section SportRule
variable {ports : PortSet} (filled : ports.isEmpty = false)
include filled

theorem ports_ne_nil : ports.toList ≠ [] := by
  rw [← List.isEmpty_eq_false_iff, Std.TreeSet.isEmpty_toList, filled]

theorem tokens_sportRule {name : Text} (named : name ≠ []) (plain : IsPlain isMark name) (limit : Option Nat)
    {comment : Text} (closed : '"' ∉ comment) (rest : Text) :
    tokens isMark (sportRule name ports limit comment ++ rest) =
      sportTokens name ports.toList limit comment ++ .mark '\n' :: tokens isMark rest := by
  obtain ⟨tail, split, lexedTail⟩ := tokens_tail limit comment rest closed
  have text : sportRule name ports limit comment ++ rest =
      addRulePrefix ++ (name ++ ' ' :: ("sport \x7b ".toList ++ (joinPorts ports ++ ' ' :: '\x7d' :: ' ' :: tail))) := by
    have sport : " sport \x7b ".toList = ' ' :: "sport \x7b ".toList := rfl
    have closing : " \x7d".toList = [' ', '\x7d'] := rfl
    simp only [sportRule, sport, closing, List.append_assoc, List.cons_append, List.nil_append, split]
  have lexedPorts := tokens_ports ports.toList (ports_ne_nil filled) ('\x7d' :: ' ' :: tail)
  rw [← joinPorts] at lexedPorts
  rw [text, tokens_addRule, tokens_word isMark named plain, tokens_sport, lexedPorts, tokens_brace, lexedTail]
  simp only [sportTokens, endTokens, List.append_assoc, List.cons_append, List.nil_append]

theorem readCommand_sportTokens {name : Text} {protocol : Protocol} (known : readProtocol name = some protocol)
    {limit : Option Nat} (bound : ∀ rateKbps ∈ limit, rateKbps < 2^64) (comment : Text) :
    readCommand (sportTokens name ports.toList limit comment) = some ⟨.sport protocol ports.toList, limit, comment⟩ := by
  apply readCommand_endTokens bound
  simp only [readSelector, if_true, known, readPorts_tokens ports.toList (ports_ne_nil filled), Option.bind_eq_bind,
    Option.bind_some]

theorem readScript_sportRule {name : Text} {protocol : Protocol} (known : readProtocol name = some protocol)
    (plain : IsPlain isMark name) {limit : Option Nat} (bound : ∀ rateKbps ∈ limit, rateKbps < 2^64) {comment : Text}
    (closed : '"' ∉ comment) (rest : Text) :
    readScript (sportRule name ports limit comment ++ rest) =
      (readScript rest).map (⟨.sport protocol ports.toList, limit, comment⟩ :: ·) := by
  have named : name ≠ [] := by
    rintro rfl
    cases known
  apply readScript_command (sportTokens name ports.toList limit comment)
  · exact tokens_sportRule filled named plain limit closed rest
  · exact newline_not_mem_sportTokens name ports.toList limit comment
  · exact readCommand_sportTokens filled known bound comment

end SportRule

theorem readScript_skuidRule {uid : Nat} (small : uid < 2^32) (limit : Option Nat)
    (bound : ∀ rateKbps ∈ limit, rateKbps < 2^64) (comment : Text) (closed : '"' ∉ comment) :
    readScript (skuidRule uid limit comment) = some [⟨.skuid uid, limit, comment⟩] := by
  obtain ⟨tail, split, lexedTail⟩ := tokens_tail limit comment [] closed
  let body : List Token := .word "meta".toList :: .word "skuid".toList :: .word (decimal uid) ::
    endTokens limit comment
  have read : readScript (skuidRule uid limit comment ++ []) =
      (readScript []).map (⟨.skuid uid, limit, comment⟩ :: ·) := by
    refine readScript_command (wordTokens ["add", "rule", "inet", "filter", "output"] ++ body) ?_ ?_ ?_
    · have text : skuidRule uid limit comment ++ [] =
          addRulePrefix ++ ("meta skuid ".toList ++ (decimal uid ++ ' ' :: tail)) := by
        simp only [skuidRule, List.append_assoc, split]
      rw [text, tokens_addRule, tokens_metaSkuid, tokens_word isMark (decimal_ne_nil uid) (decimal_plain uid),
        lexedTail]
      simp only [body, endTokens, List.append_assoc, List.cons_append, List.nil_append]
    · simp [body, newline_not_mem_end, wordTokens]
    · apply readCommand_endTokens bound
      simp only [body, readSelector, and_self, if_true, parseU32_decimal small, Option.map_some]
  rw [List.append_nil] at read
  rw [read]
  rfl

def portSpecs (tcpPorts udpPorts : PortSet) (limit : Option Nat) (comment : Text) : List RuleSpec :=
  (if tcpPorts.isEmpty then [] else [⟨.sport .tcp tcpPorts.toList, limit, comment⟩]) ++
    (if udpPorts.isEmpty then [] else [⟨.sport .udp udpPorts.toList, limit, comment⟩])

theorem readScript_portRuleset (tcpPorts udpPorts : PortSet) (limit : Option Nat)
    (bound : ∀ rateKbps ∈ limit, rateKbps < 2^64) (comment : Text) (closed : '"' ∉ comment) :
    readScript (portRuleset tcpPorts udpPorts limit comment) =
      some (portSpecs tcpPorts udpPorts limit comment) := by
  have tcp (filled : tcpPorts.isEmpty = false) (rest : Text) :
      readScript (sportRule "tcp".toList tcpPorts limit comment ++ rest) =
        (readScript rest).map (⟨.sport .tcp tcpPorts.toList, limit, comment⟩ :: ·) :=
    readScript_sportRule filled rfl (by decide) bound closed rest
  have udp (filled : udpPorts.isEmpty = false) : readScript (sportRule "udp".toList udpPorts limit comment) =
      some [⟨.sport .udp udpPorts.toList, limit, comment⟩] := by
    have read : readScript (sportRule "udp".toList udpPorts limit comment ++ []) =
        (readScript []).map (⟨.sport .udp udpPorts.toList, limit, comment⟩ :: ·) :=
      readScript_sportRule filled rfl (by decide) bound closed []
    rw [List.append_nil] at read
    rw [read]
    rfl
  have done : readScript [] = some [] := rfl
  cases noTcp : tcpPorts.isEmpty <;> cases noUdp : udpPorts.isEmpty <;>
    simp only [portRuleset, portSpecs, noTcp, noUdp, if_true, Bool.false_eq_true, if_false, List.nil_append]
  · rw [tcp noTcp, udp noUdp]
    rfl
  · rw [tcp noTcp, done]
    rfl
  · exact udp noUdp
  · exact done

end Netmon.Controller
