import ChatBot.Text.Blank
import ChatBot.Text.LowerCase
import ChatBot.Text.Search

/-!
# Command words

A command is named by words. Case and spacing do not matter: what counts are the lower-cased
words, and the normal form of a command is those words with single spaces between them.
-/

set_option autoImplicit false

namespace ChatBot

/-- The words of a line in lower case. -/
def lowerWords (line : String) : List String :=
  (Text.words line).map Text.lower

/-- Words with single spaces between them. -/
def spaced (words : List String) : String :=
  Text.joinWith " " words

/-- Spacing words out puts one blank between any two of them. -/
theorem toList_spaced (words : List String) :
    (spaced words).toList = [' '].intercalate (words.map String.toList) :=
  Text.toList_joinWith ' ' words

/-- The normal form of a command. -/
def normalForm (command : String) : String :=
  spaced (lowerWords command)

/-- The first result of `f` on a number of words of a line, the longest beginning first; the
beginning is not empty. -/
def longestBeginning {α : Type} (f : Nat → Option α) : Nat → Option α
  | 0 => none
  | n + 1 =>
    match f (n + 1) with
    | some a => some a
    | none => longestBeginning f n

end ChatBot
