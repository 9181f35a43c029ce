/-!
# Similar words

Two words are as similar as the mean of three shares: of the first word's characters that find a
partner in the second, of the second's that are partners, and of the pairs that stand in the same order.
A partner is an equal character at most half the longer word away.
-/

namespace PalChecker.Similarity

/-- The characters of a word that find a partner in `other`, each with its partner's place. Partners are
sought from `place` on, at most `reach` away, and none is taken twice. -/
def pairs (other : List Char) (reach : Nat) : (place : Nat) → (taken : List Nat) → List Char →
    List (Char × Nat)
  | _, _, [] => []
  | place, taken, c :: rest =>
    let partner? := (List.range other.length).find? fun i =>
      place ≤ i + reach ∧ i ≤ place + reach ∧ other[i]? = some c ∧ i ∉ taken
    match partner? with
    | some i => (c, i) :: pairs other reach (place + 1) (i :: taken) rest
    | none => pairs other reach (place + 1) taken rest

/-- How many partners stand out of order. -/
def displaced (other : List Char) (found : List (Char × Nat)) : Nat :=
  let places := (found.map Prod.snd).mergeSort
  ((found.zip places).filter fun ((c, _), i) => other[i]? ≠ some c).length

/-- How similar two words are, from zero to one. -/
def similarity (a b : List Char) : Float :=
  let reach := max a.length b.length / 2 - 1
  let found := pairs b reach 0 [] a
  let matched := found.length
  let ordered := matched - displaced b found / 2
  if matched = 0 then 0
  else
    (matched.toFloat / a.length.toFloat + matched.toFloat / b.length.toFloat +
      ordered.toFloat / matched.toFloat) / 3

end PalChecker.Similarity
