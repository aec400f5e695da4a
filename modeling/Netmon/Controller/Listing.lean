import Netmon.Controller.Script

/-! The text of `nft -a list chain` and the search for rule handles in it. How
nft words a listing is left open, up to what the search relies on. -/
namespace Netmon.Controller
open Library

def handleKey : Text := "handle ".toList

/-- How nft lists the chain: each rule on a line of its own, with its comment
verbatim and its handle at the end. -/
structure Listing where
  opening : List Text
  closing : List Text
  line : Rule → Text
  frame_single : ∀ row ∈ opening ++ closing, '\n' ∉ row
  line_single : ∀ rule, rule.Plain → '\n' ∉ line rule
  line_comment : ∀ handle purpose spec, spec.comment <:+: line ⟨handle, .netmon purpose spec⟩
  line_handle : ∀ rule, ∃ front, line rule = front ++ (handleKey ++ decimal rule.handle)

/-- A listing in which only a comment can hold the markers of the controller. -/
structure PlainListing extends Listing where
  frame_unmarked : ∀ row ∈ opening ++ closing, ¬ruleCommentPrefix <:+: row
  line_marked : ∀ handle purpose spec marker, '"' ∉ spec.comment → ruleCommentPrefix <+: marker →
    '"' ∉ marker → marker <:+: line ⟨handle, .netmon purpose spec⟩ → marker <:+: spec.comment

/-- The standard output of `nft -a list chain inet filter output`. -/
def Listing.text (nft : Listing) (ruleset : Ruleset) : Text :=
  unlines (nft.opening ++ ruleset.rules.map nft.line ++ nft.closing)

def lineHandle (line : Text) : Option Nat :=
  match rfind handleKey line with
  | some idx => parseU64 (trim (line.drop (idx + 7)))
  | none => none

def markedHandle (marker line : Text) : Option Nat :=
  if contains line marker then lineHandle line else none

/-- The loop of the two handle searches, over the lines of a listing. -/
def markedHandles (marker stdout : Text) : List Nat := (lines stdout).filterMap (markedHandle marker)

theorem lineHandle_line (nft : Listing) (rule : Rule) (wide : rule.handle < 2^64) :
    lineHandle (nft.line rule) = some rule.handle := by
  obtain ⟨front, shape⟩ := nft.line_handle rule
  have solid := (decimal_isWord rule.handle).2
  have once : 'h' ∉ "andle ".toList ++ decimal rule.handle := by
    rw [List.mem_append]
    rintro (inKey | inNumber)
    · simp at inKey
    · exact decimal_not_mem (by decide) inNumber
  have place := rfind_last 'h' "andle ".toList front (decimal rule.handle) once
  have key : handleKey = 'h' :: "andle ".toList := rfl
  have behind : (front ++ ('h' :: "andle ".toList ++ decimal rule.handle)).drop (front.length + 7) =
      decimal rule.handle := by
    rw [List.drop_append, List.drop_eq_nil_of_le (Nat.le_add_right _ _), Nat.add_sub_cancel_left]
    rfl
  rw [lineHandle, shape, key, place]
  simp only [behind, trim_of_solid _ solid, parseU64_decimal wide]

theorem chomp_line (nft : Listing) (rule : Rule) : chomp (nft.line rule) = nft.line rule := by
  obtain ⟨front, shape⟩ := nft.line_handle rule
  have filled := decimal_ne_nil rule.handle
  have digit := decimal_isDigit (List.getLast_mem filled)
  refine chomp_of_last (c := (decimal rule.handle).getLast filled) ?_ ?_
  · rw [shape, ← List.append_assoc, List.getLast?_append_of_ne_nil _ filled, List.getLast?_eq_some_getLast filled]
  · intro same
    rw [same] at digit
    simp at digit

def frameHandles (marker : Text) (rows : List Text) : List Nat :=
  rows.filterMap fun row => markedHandle marker (chomp row)

theorem markedHandles_text (nft : Listing) (marker : Text) (ruleset : Ruleset)
    (plain : ∀ rule ∈ ruleset.rules, rule.Plain) :
    markedHandles marker (nft.text ruleset) =
      frameHandles marker nft.opening ++
        (ruleset.rules.filter fun rule => contains (nft.line rule) marker).map Rule.handle ++
        frameHandles marker nft.closing := by
  have single : ∀ row ∈ nft.opening ++ ruleset.rules.map nft.line ++ nft.closing, '\n' ∉ row := by
    intro row member
    simp only [List.mem_append, List.mem_map] at member
    rcases member with (inOpening | ⟨rule, inRules, rfl⟩) | inClosing
    · exact nft.frame_single row (by simp [inOpening])
    · exact nft.line_single rule (plain rule inRules)
    · exact nft.frame_single row (by simp [inClosing])
  have found : (ruleset.rules.map nft.line).filterMap (fun row => markedHandle marker (chomp row)) =
      (ruleset.rules.filter fun rule => contains (nft.line rule) marker).map Rule.handle := by
    rw [List.filterMap_map, ← List.filterMap_eq_map, ← List.filterMap_eq_filter, List.filterMap_filterMap]
    apply List.filterMap_congr
    intro rule member
    have wide := Nat.lt_of_lt_of_le (ruleset.fresh rule member) ruleset.wide
    simp only [Function.comp_apply, chomp_line, markedHandle, lineHandle_line nft rule wide, Option.guard]
    split <;> rfl
  rw [markedHandles, Listing.text, lines_unlines _ single, List.filterMap_map]
  simp only [List.filterMap_append, Function.comp_def, frameHandles, found]

theorem frameHandles_nil (nft : PlainListing) {marker : Text} (marks : ruleCommentPrefix <+: marker)
    (rows : List Text) (frame : ∀ row ∈ rows, row ∈ nft.opening ++ nft.closing) : frameHandles marker rows = [] := by
  rw [frameHandles, List.filterMap_eq_nil_iff]
  intro row member
  rw [markedHandle, if_neg]
  rw [contains_iff]
  intro found
  exact nft.frame_unmarked row (frame row member) ((marks.isInfix.trans found).trans (chomp_prefix_line row).isInfix)

theorem markedHandles_plain (nft : PlainListing) {marker : Text} (marks : ruleCommentPrefix <+: marker)
    (ruleset : Ruleset) (plain : ∀ rule ∈ ruleset.rules, rule.Plain) :
    markedHandles marker (nft.text ruleset) =
      (ruleset.rules.filter fun rule => contains (nft.line rule) marker).map Rule.handle := by
  rw [markedHandles_text nft.toListing marker ruleset plain,
    frameHandles_nil nft marks nft.opening fun row member => List.mem_append_left _ member,
    frameHandles_nil nft marks nft.closing fun row member => List.mem_append_right _ member,
    List.nil_append, List.append_nil]

def protocolText : Protocol → Text
  | .tcp => "tcp".toList
  | .udp => "udp".toList
  | .other _ => "other".toList

def portsText (ports : List UInt16) : Text :=
  ", ".toList.intercalate (ports.map fun port => decimal port.toNat)

def selectorText : Selector → Text
  | .sport protocol ports => protocolText protocol ++ (" sport \x7b ".toList ++ (portsText ports ++ " \x7d".toList))
  | .skuid uid => "meta skuid ".toList ++ decimal uid

def ruleFront (spec : RuleSpec) : Text :=
  "\t\t".toList ++ (selectorText spec.selector ++ (limitText spec.limit ++ " comment ".toList))

def ruleBack (handle : Nat) : Text := " drop # ".toList ++ (handleKey ++ decimal handle)

def ruleLine (rule : Rule) : Text :=
  match rule.body with
  | .netmon _ spec => ruleFront spec ++ ('"' :: (spec.comment ++ ('"' :: ruleBack rule.handle)))
  | .foreign text _ => text ++ (" # ".toList ++ (handleKey ++ decimal rule.handle))

def Clean (text : Text) : Prop := ∀ c ∈ text, c ≠ '\n' ∧ c ≠ '-'

instance (text : Text) : Decidable (Clean text) := inferInstanceAs (Decidable (∀ c ∈ text, c ≠ '\n' ∧ c ≠ '-'))

theorem Clean.append {front back : Text} (left : Clean front) (right : Clean back) : Clean (front ++ back) :=
  fun c member => (List.mem_append.mp member).elim (left c) (right c)

theorem clean_decimal (n : Nat) : Clean (decimal n) := by
  intro c member
  have digit := decimal_isDigit member
  constructor <;> (rintro rfl; simp at digit)

theorem clean_portsText (ports : List UInt16) : Clean (portsText ports) := by
  induction ports with
  | nil => exact fun c member => absurd member (by simp [portsText])
  | cons port ports ih =>
    cases ports with
    | nil => simpa [portsText] using clean_decimal port.toNat
    | cons next ports =>
      rw [portsText, List.map_cons, List.map_cons, List.intercalate_cons_cons]
      exact ((clean_decimal _).append (by decide)).append ih

theorem clean_selectorText (selector : Selector) : Clean (selectorText selector) := by
  cases selector with
  | skuid uid => exact Clean.append (by decide) (clean_decimal uid)
  | sport protocol ports =>
    have named : Clean (protocolText protocol) := by
      cases protocol with
      | tcp => decide
      | udp => decide
      | other number => exact (by decide : Clean "other".toList)
    exact named.append (Clean.append (by decide) ((clean_portsText ports).append (by decide)))

theorem clean_limitText (limit : Option Nat) : Clean (limitText limit) := by
  cases limit with
  | none => decide
  | some rateKbps => exact Clean.append (Clean.append (by decide) (clean_decimal _)) (by decide)

theorem clean_ruleFront (spec : RuleSpec) : Clean (ruleFront spec) :=
  Clean.append (by decide) ((clean_selectorText _).append ((clean_limitText _).append (by decide)))

theorem clean_ruleBack (handle : Nat) : Clean (ruleBack handle) :=
  Clean.append (by decide) (Clean.append (by decide) (clean_decimal handle))

def nftListing : PlainListing where
  opening := ["table inet filter \x7b".toList, "\tchain output \x7b # handle 1".toList,
    "\t\ttype filter hook output priority filter; policy accept;".toList]
  closing := ["\t\x7d".toList, "\x7d".toList]
  line := ruleLine
  frame_single := by decide
  frame_unmarked := by decide
  line_single := by
    rintro ⟨handle, body⟩ plain
    cases body with
    | foreign text single =>
      have tail : Clean (" # ".toList ++ (handleKey ++ decimal handle)) :=
        Clean.append (by decide) (Clean.append (by decide) (clean_decimal handle))
      intro member
      rcases List.mem_append.mp member with member | member
      · exact single member
      · exact (tail _ member).1 rfl
    | netmon purpose spec =>
      have comment : '\n' ∉ spec.comment := plain
      intro member
      rcases List.mem_append.mp member with member | member
      · exact (clean_ruleFront spec _ member).1 rfl
      · rcases List.mem_append.mp (List.mem_of_ne_of_mem (by decide) member) with member | member
        · exact comment member
        · exact (clean_ruleBack handle _ (List.mem_of_ne_of_mem (by decide) member)).1 rfl
  line_comment handle purpose spec := ⟨ruleFront spec ++ ['"'], '"' :: ruleBack handle, by simp [ruleLine]⟩
  line_handle := by
    rintro ⟨handle, body⟩
    cases body with
    | foreign text single => exact ⟨text ++ " # ".toList, by simp [ruleLine]⟩
    | netmon purpose spec =>
      refine ⟨ruleFront spec ++ '"' :: (spec.comment ++ '"' :: " drop # ".toList), ?_⟩
      change ruleFront spec ++ ('"' :: (spec.comment ++ ('"' :: (" drop # ".toList ++ _)))) = _
      simp only [List.append_assoc, List.cons_append]
  line_marked := by
    rintro handle purpose spec marker _ ⟨rest, rfl⟩ closed inside
    have dashed {text : Text} (clean : Clean text) : ¬ruleCommentPrefix ++ rest <:+: text := by
      intro found
      exact (clean '-' (found.subset (List.mem_append_left rest (by decide)))).2 rfl
    rcases infix_append_cons inside closed with front | inside
    · exact absurd front (dashed (clean_ruleFront spec))
    · rcases infix_append_cons inside closed with comment | back
      · exact comment
      · exact absurd back (dashed (clean_ruleBack handle))

end Netmon.Controller
