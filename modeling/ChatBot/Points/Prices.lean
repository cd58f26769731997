import ChatBot.Commands.Words
import ChatBot.NameMap

/-!
# Prices

What commands cost. A line that starts with the words of a priced command costs its price; of
several such commands the one with the most words counts.
-/

set_option autoImplicit false

namespace ChatBot

/-- Prices by the normal form of the command; all of them are positive. -/
structure PriceTable where
  prices : NameMap Int64 := ∅

namespace PriceTable

/-- Sets the price of a command; without a positive price a command is free. -/
def set (t : PriceTable) (command : String) (price : Int64) : PriceTable :=
  if price ≤ 0 then ⟨t.prices.erase (normalForm command)⟩
  else ⟨t.prices.insert (normalForm command) price⟩

/-- The price of a command. -/
def priceOf (t : PriceTable) (command : String) : Option Int64 :=
  t.prices[normalForm command]?

/-- The longest priced command that a line starts with, and its price. -/
def match? (t : PriceTable) (line : String) : Option (String × Int64) :=
  let tokens := lowerWords line
  longestBeginning (fun n =>
    let command := spaced (tokens.take n)
    (t.prices[command]?).map fun price => (command, price)) tokens.length

end PriceTable

end ChatBot
