import Netmon.Library.Text

/-! A lexer for command languages: words between blanks, marks that stand for
themselves, and quoted strings that end at the next quote. -/
namespace Netmon.Library

inductive Token where
  | word (text : Text)
  | quoted (text : Text)
  | mark (c : Char)
  /-- A string without a closing quote. -/
  | unterminated
deriving DecidableEq, Repr

section Lexer
variable (isMark : Char → Bool)

def wordToken : Text → List Token
  | [] => []
  | sofar => [.word sofar]

/-- The tokens from one place on, `sofar` being the word or the string read so far. -/
def tokensFrom : Bool → Text → Text → List Token
  | true, _, [] => [.unterminated]
  | true, sofar, c :: rest =>
    if c = '"' then .quoted sofar :: tokensFrom false [] rest else tokensFrom true (sofar ++ [c]) rest
  | false, sofar, [] => wordToken sofar
  | false, sofar, c :: rest =>
    if c = '"' then wordToken sofar ++ tokensFrom true [] rest
    else if c = ' ' then wordToken sofar ++ tokensFrom false [] rest
    else if isMark c then wordToken sofar ++ .mark c :: tokensFrom false [] rest
    else tokensFrom false (sofar ++ [c]) rest

def tokens (text : Text) : List Token := tokensFrom isMark false [] text

def IsPlain (text : Text) : Prop := ∀ c ∈ text, c ≠ '"' ∧ c ≠ ' ' ∧ isMark c = false

instance (text : Text) : Decidable (IsPlain isMark text) :=
  inferInstanceAs (Decidable (∀ c ∈ text, c ≠ '"' ∧ c ≠ ' ' ∧ isMark c = false))

theorem tokensFrom_plain (sofar text rest : Text) (plain : IsPlain isMark text) :
    tokensFrom isMark false sofar (text ++ rest) = tokensFrom isMark false (sofar ++ text) rest := by
  induction text generalizing sofar with
  | nil => simp
  | cons c text ih =>
    obtain ⟨quote, blank, mark⟩ := plain c (by simp)
    rw [List.cons_append, tokensFrom, if_neg quote, if_neg blank, mark, if_neg Bool.false_ne_true,
      ih _ fun other member => plain other (List.mem_cons_of_mem c member), List.append_assoc,
      List.singleton_append]

theorem tokens_word {word : Text} (filled : word ≠ []) (plain : IsPlain isMark word) (rest : Text) :
    tokens isMark (word ++ ' ' :: rest) = .word word :: tokens isMark rest := by
  rw [tokens, tokensFrom_plain isMark [] word _ plain]
  cases word with
  | nil => exact absurd rfl filled
  | cons c word => rfl

theorem tokens_word_mark {word : Text} (filled : word ≠ []) (plain : IsPlain isMark word) {c : Char}
    (mark : isMark c = true) (notQuote : c ≠ '"') (notBlank : c ≠ ' ') (rest : Text) :
    tokens isMark (word ++ c :: rest) = .word word :: .mark c :: tokens isMark rest := by
  rw [tokens, tokensFrom_plain isMark [] word _ plain, tokensFrom, if_neg notQuote, if_neg notBlank, if_pos mark]
  cases word with
  | nil => exact absurd rfl filled
  | cons c word => rfl

theorem tokensFrom_quoted (sofar text rest : Text) (closed : '"' ∉ text) :
    tokensFrom isMark true sofar (text ++ '"' :: rest) = .quoted (sofar ++ text) :: tokens isMark rest := by
  induction text generalizing sofar with
  | nil => simp [tokensFrom, tokens]
  | cons c text ih =>
    have notQuote : c ≠ '"' := fun same => closed (by simp [same])
    rw [List.cons_append, tokensFrom, if_neg notQuote, ih _ fun member => closed (List.mem_cons_of_mem c member),
      List.append_assoc, List.singleton_append]

theorem tokens_quoted {text : Text} (closed : '"' ∉ text) (rest : Text) :
    tokens isMark ('"' :: text ++ '"' :: rest) = .quoted text :: tokens isMark rest := by
  rw [tokens, List.cons_append, tokensFrom, if_pos rfl, tokensFrom_quoted isMark [] text rest closed]
  rfl

end Lexer

def commandsFrom (terminator : Token) (command : List Token) : List Token → List (List Token)
  | [] => if command.isEmpty then [] else [command]
  | token :: rest =>
    if token = terminator then command :: commandsFrom terminator [] rest
    else commandsFrom terminator (command ++ [token]) rest

theorem commandsFrom_append (terminator : Token) (start command rest : List Token) (whole : terminator ∉ command) :
    commandsFrom terminator start (command ++ terminator :: rest) =
      (start ++ command) :: commandsFrom terminator [] rest := by
  induction command generalizing start with
  | nil => simp [commandsFrom]
  | cons token command ih =>
    have other : token ≠ terminator := fun same => whole (by simp [same])
    rw [List.cons_append, commandsFrom, if_neg other, ih _ fun member => whole (List.mem_cons_of_mem token member),
      List.append_assoc, List.singleton_append]

end Netmon.Library
