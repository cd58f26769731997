import ChatBot.Json.Printer
import ChatBot.NameMap
import ChatBot.Text.Search

/-!
# Message texts

The wording of the messages that the bot sends on its own account. A text holds places of the
form of a name in double braces, and each place is filled with the value of that name. Names are
filled in one after the other, in their order; a place whose name has no value stays as it is.
-/

set_option autoImplicit false

namespace ChatBot.Locale

/-- The place that a named value fills. -/
def place (name : String) : String :=
  "\x7b\x7b" ++ name ++ "\x7d\x7d"

/-- Fills the places of a text. -/
def fillPlaces (text : String) (params : NameMap Json) : String :=
  params.toList.foldl (fun text param => Text.replaceAll text (place param.1) param.2.text) text

/-- The texts by their keys. -/
structure Translator where
  entries : NameMap String

/-- The key of the reply to a sender who cannot pay. -/
def notEnoughPoints : String := "price.user-have-not-enough-points"

/-- The key of the reply to a sender without permission. -/
def permissionDenied : String := "core.permission-denied"

/-- The key of the reply to a command that has no responses. -/
def noResponse : String := "customcmds.no-response"

/-- The English texts. -/
def english : Translator where
  entries := NameMap.ofList [
    (notEnoughPoints,
      "Sorry, " ++ place "sender" ++ ", but you don't have " ++ place "amount" ++
        " points to use " ++ place "command"),
    (permissionDenied,
      place "sender" ++ ", you don't have permission to use " ++ place "command"),
    (noResponse, place "sender" ++ ", " ++ place "command" ++ " has no responses")]

namespace Translator

/-- The same texts with one added or replaced. -/
def withEntry (t : Translator) (key text : String) : Translator :=
  ⟨t.entries.insert key text⟩

/-- The same texts with more added or replaced. -/
def withEntries (t : Translator) (entries : List (String × String)) : Translator :=
  entries.foldl (fun t entry => t.withEntry entry.1 entry.2) t

/-- The text of a key with its places filled; a key without a text stands for itself. -/
def localize (t : Translator) (key : String) (params : NameMap Json) : String :=
  match t.entries[key]? with
  | some text => fillPlaces text params
  | none => key

end Translator

end ChatBot.Locale
