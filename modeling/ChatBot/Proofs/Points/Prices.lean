import ChatBot.Points.Prices
import ChatBot.Proofs.Commands.Words

/-!
# What a line costs

The price that counts is that of the longest priced command that a line starts with. Here it is
told without a search: the beginnings of a line have prices, shortest beginning first, and the last
of these counts (`PriceTable.cost`). The search for it finds the same (`PriceTable.match?_eq_cost`),
also when it is made on the line with single spaces.
-/

set_option autoImplicit false

namespace ChatBot.PriceTable

/-- The prices of the commands that a line starts with, shortest command first. -/
def quotes (t : PriceTable) (line : String) : List Int64 :=
  (List.range (lowerWords line).length).filterMap fun k =>
    t.prices[spaced ((lowerWords line).take (k + 1))]?

/-- The price of the longest priced command that a line starts with, if there is any. -/
def cost (t : PriceTable) (line : String) : Option Int64 :=
  (t.quotes line).getLast?

/-- The search for the longest priced command finds what the line costs. -/
theorem match?_eq_cost (t : PriceTable) (line : String) :
    (t.match? line).map (fun found => found.2) = t.cost line := by
  unfold match? cost quotes
  dsimp only
  rw [longestBeginning_eq_getLast?, ← List.getLast?_map, List.map_filterMap]
  simp only [Option.map_map, Function.comp_def, Option.map_id']

/-- A line costs the same with single spaces between its words. -/
theorem cost_spaced_words (t : PriceTable) (line : String) :
    t.cost (spaced (Text.words line)) = t.cost line := by
  unfold cost quotes
  rw [lowerWords_spaced_words]

end ChatBot.PriceTable
