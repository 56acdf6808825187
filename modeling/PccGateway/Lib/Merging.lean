import PccGateway.Lib.Incremental

namespace Merging
open Incremental
variable {β ι : Type}

/-- Some events carry a piece of data: `data` reads it and `piece` makes such an event. -/
structure Pieces (data : β → Option (List ι)) (piece : List ι → β) : Prop where
  data_piece : ∀ content, data (piece content) = some content
  piece_of_data : ∀ {event content}, data event = some content → event = piece content

variable (data : β → Option (List ι)) (piece : List ι → β)

/-- Put an event in front of a merged list, joining it to a piece already there. -/
def join (event : β) : List β → List β
  | [] => [event]
  | next :: rest =>
    match data event, data next with
    | some first, some second => piece (first ++ second) :: rest
    | _, _ => event :: next :: rest

/-- Adjacent pieces become one. -/
def merge (events : List β) : List β := events.foldr (join data piece) []

variable {data piece}

theorem join_piece (pieces : Pieces data piece) (first second : List ι) (rest : List β) :
    join data piece (piece first) (join data piece (piece second) rest) =
      join data piece (piece (first ++ second)) rest := by
  cases rest with
  | nil => simp [join, pieces.data_piece]
  | cons event rest =>
    cases content : data event with
    | none => simp [join, pieces.data_piece, content]
    | some third => simp [join, pieces.data_piece, content]

theorem foldr_join_merge (pieces : Pieces data piece) (events tail : List β) :
    (merge data piece events).foldr (join data piece) tail = events.foldr (join data piece) tail := by
  induction events with
  | nil => rfl
  | cons event events ih =>
    have unfolded : merge data piece (event :: events) =
        join data piece event (merge data piece events) := rfl
    rw [unfolded, List.foldr_cons, ← ih]
    cases merged : merge data piece events with
    | nil => rfl
    | cons next rest =>
      cases first : data event with
      | none => simp [join, first]
      | some first' =>
        cases second : data next with
        | none => simp [join, first, second]
        | some second' =>
          rw [pieces.piece_of_data first, pieces.piece_of_data second]
          have joined : join data piece (piece first') (piece second' :: rest) =
              piece (first' ++ second') :: rest := by
            simp [join, pieces.data_piece]
          rw [joined, List.foldr_cons, List.foldr_cons, join_piece pieces]

theorem merge_append (pieces : Pieces data piece) (first second : List β) :
    merge data piece (first ++ second) =
      (merge data piece first).foldr (join data piece) (merge data piece second) := by
  rw [foldr_join_merge pieces, merge, List.foldr_append]
  rfl

/-- Lists that differ only in how their data is cut. -/
theorem merge_coalescing (pieces : Pieces data piece) :
    Decoder.Coalescing fun first second : List β => merge data piece first = merge data piece second where
  equivalence := ⟨fun _ => rfl, Eq.symm, Eq.trans⟩
  append := fun first second => by rw [merge_append pieces, merge_append pieces, first, second]

end Merging
