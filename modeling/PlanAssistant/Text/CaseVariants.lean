import PlanAssistant.Text.Casing

/-!
Characters that are the same but for their case.  Most of them share one lower-case form; a few small
letters have a capital in common and no lower-case form, and `siblings` lists those.
-/
namespace PlanAssistant.Text

def siblingTable : List (Nat × List Nat) := [
  (105, [305]), (115, [383]), (181, [956]), (305, [105]), (383, [115]), (837, [953, 8126]),
  (912, [8147]), (944, [8163]), (946, [976]), (949, [1013]), (952, [977]), (953, [837, 8126]),
  (954, [1008]), (956, [181]), (960, [982]), (961, [1009]), (962, [963]), (963, [962]),
  (966, [981]), (976, [946]), (977, [952]), (981, [966]), (982, [960]), (1008, [954]),
  (1009, [961]), (1013, [949]), (1074, [7296]), (1076, [7297]), (1086, [7298]), (1089, [7299]),
  (1090, [7300, 7301]), (1098, [7302]), (1123, [7303]), (7296, [1074]), (7297, [1076]),
  (7298, [1086]), (7299, [1089]), (7300, [1090, 7301]), (7301, [1090, 7300]), (7302, [1098]),
  (7303, [1123]), (7304, [42571]), (7777, [7835]), (7835, [7777]), (8126, [837, 953]),
  (8147, [912]), (8163, [944]), (42571, [7304]), (64261, [64262]), (64262, [64261])]

/-- The other small letters that share their capital with the small letter `code`. -/
def siblings (code : Nat) : List Nat := (siblingTable.lookup code).getD []

/-- The capitals, in the basic plane, whose lower-case form is `code`. -/
def capitals (code : Nat) : List Nat :=
  capitalRuns.toList.filterMap fun run =>
    let capital := code + run.down - run.up
    if run.first < 65536 && run.up ≤ code + run.down && run.contains capital then some capital else none

/-- Everything in the basic plane that the small letter `code` counts as without regard to case. -/
def caseVariants (code : Nat) : List Nat :=
  let small := code :: siblings code
  small ++ small.flatMap capitals

end PlanAssistant.Text
