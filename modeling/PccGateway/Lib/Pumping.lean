import Mathlib.Data.List.DropRight
import PccGateway.Lib.Incremental

namespace Incremental
namespace Decoder
variable {σ ε ι β : Type} (D : Decoder σ ε ι β)

/-- The loop without a quota, from its first turn to the one that ends it. -/
inductive Halts : σ → σ → List β → Option ε → Prop
  | wait {s : σ} : D.turn s = .wait → Halts s s [] none
  | fail {s t : σ} {error : ε} : D.turn s = .fail error t → Halts s t [] (some error)
  | emit {s s' t : σ} {new events : List β} {complete : Bool} {error : Option ε} :
      D.turn s = .emit s' new complete → Halts s' t events error → Halts s t (new ++ events) error

/-- The ends of messages can be told from the events: a turn completes a message exactly when the last
event that it emits is an end. -/
structure Marked (isEnd : β → Bool) : Prop where
  last : ∀ {s s' events}, D.turn s = .emit s' events true → ∃ body final, events = body ++ [final] ∧
    isEnd final = true
  within : ∀ {s s' events}, D.turn s = .emit s' events false → ∀ event ∈ events, isEnd event = false

/-- A call with the input and then calls without any, each for one message, until one returns no event
or fails. `none` when `calls` of them were not enough. -/
def pump : Nat → σ → List ι → Option (σ × List β × Option ε)
  | 0, _, _ => none
  | calls + 1, s, data =>
    match D.feed 1 s data with
    | (s', _, some error) => some (s', [], some error)
    | (s', [], none) => some (s', [], none)
    | (s', events, none) => (pump calls s' []).map fun (t, more, error) => (t, events ++ more, error)

/-- The events of the messages that are complete. -/
def wholeMessages (isEnd : β → Bool) (events : List β) : List β :=
  events.rdropWhile fun event => !isEnd event

/-- What one-message calls return of `events`: a failed call returns nothing of the message that it
failed in. -/
def returned (isEnd : β → Bool) (events : List β) : Option ε → List β
  | none => events
  | some _ => wholeMessages isEnd events

variable {D} {isEnd : β → Bool}

theorem wholeMessages_append {body : List β} {final : β} (ends : isEnd final = true) (rest : List β) :
    wholeMessages isEnd (body ++ [final] ++ rest) = body ++ [final] ++ wholeMessages isEnd rest := by
  induction rest using List.reverseRecOn with
  | nil => simp [wholeMessages, ends]
  | append_singleton rest event ih =>
    unfold wholeMessages at ih ⊢
    rw [← List.append_assoc, List.rdropWhile_concat, List.rdropWhile_concat, ih]
    split
    · rfl
    · rw [List.append_assoc _ rest]

theorem wholeMessages_of_none {events : List β} (none : ∀ event ∈ events, isEnd event = false) :
    wholeMessages isEnd events = [] :=
  (List.rdropWhile_eq_nil_iff ..).mpr fun event member => by simp [none event member]

theorem returned_append {body : List β} {final : β} (ends : isEnd final = true) (rest : List β)
    (error : Option ε) :
    returned isEnd (body ++ [final] ++ rest) error = body ++ [final] ++ returned isEnd rest error := by
  cases error with
  | none => rfl
  | some error => exact wholeMessages_append ends rest

/-- The loop always ends. -/
theorem exists_halts (D : Decoder σ ε ι β) (s : σ) : ∃ t events error, D.Halts s t events error := by
  induction size : D.size s using Nat.strong_induction_on generalizing s with
  | _ size' ih =>
    cases turn : D.turn s with
    | wait => exact ⟨s, [], none, .wait turn⟩
    | fail error t => exact ⟨t, [], some error, .fail turn⟩
    | emit s' new complete =>
      have smaller := D.size_lt turn
      obtain ⟨t, events, error, halts⟩ := ih _ (size ▸ smaller) s' rfl
      exact ⟨t, new ++ events, error, .emit turn halts⟩

theorem Halts.waits {s t : σ} {events : List β} {error : Option ε} (halts : D.Halts s t events error)
    (clean : error = none) :
    D.turn t = .wait := by
  induction halts with
  | wait waits => exact waits
  | fail => cases clean
  | emit _ _ ih => exact ih clean

theorem Halts.drain {s t : σ} {events : List β} {error : Option ε} (halts : D.Halts s t events error)
    {fuel completed : Nat} {past : List β} (enough : D.size s < fuel) :
    D.drain 0 fuel s completed past = (t, past ++ events, error) := by
  induction halts generalizing fuel completed past with
  | wait waits =>
    obtain ⟨fuel, rfl⟩ := Nat.exists_eq_add_one_of_ne_zero (Nat.ne_zero_of_lt enough)
    simp [Decoder.drain, waits]
  | fail fails =>
    obtain ⟨fuel, rfl⟩ := Nat.exists_eq_add_one_of_ne_zero (Nat.ne_zero_of_lt enough)
    simp [Decoder.drain, fails]
  | emit turn _ ih =>
    obtain ⟨fuel, rfl⟩ := Nat.exists_eq_add_one_of_ne_zero (Nat.ne_zero_of_lt enough)
    have smaller := D.size_lt turn
    simp only [Decoder.drain, turn, Nat.lt_irrefl, false_and, and_false, if_false]
    rw [ih (by omega), List.append_assoc]

theorem feed_eq_iff_halts {s t : σ} {data : List ι} {events : List β} {error : Option ε} :
    D.feed 0 s data = (t, events, error) ↔ D.Halts (D.push s data) t events error := by
  have feeds {t events error} (halts : D.Halts (D.push s data) t events error) :
      D.feed 0 s data = (t, events, error) := by
    rw [feed, halts.drain (Nat.lt_succ_self _), List.nil_append]
  refine ⟨fun run => ?_, feeds⟩
  obtain ⟨t', events', error', halts⟩ := D.exists_halts (D.push s data)
  have same := run.symm.trans (feeds halts)
  simp only [Prod.mk.injEq] at same
  obtain ⟨rfl, rfl, rfl⟩ := same
  exact halts

/-- One call for one message: it does what the unbounded loop does and meets no end, or it stops right
behind the first end, from where the unbounded loop goes on. -/
theorem Halts.drain_one (marked : D.Marked isEnd) {s t : σ} {events : List β} {error : Option ε}
    (halts : D.Halts s t events error) {fuel : Nat} (past : List β) (enough : D.size s < fuel) :
    D.drain 1 fuel s 0 past = (t, past ++ events, error) ∧ (∀ event ∈ events, isEnd event = false) ∨
    ∃ s' body final rest, D.drain 1 fuel s 0 past = (s', past ++ (body ++ [final]), none) ∧
    isEnd final = true ∧
      events = body ++ [final] ++ rest ∧ D.Halts s' t rest error ∧ D.size s' < D.size s := by
  induction halts generalizing fuel past with
  | wait waits =>
    obtain ⟨fuel, rfl⟩ := Nat.exists_eq_add_one_of_ne_zero (Nat.ne_zero_of_lt enough)
    simp [Decoder.drain, waits]
  | fail fails =>
    obtain ⟨fuel, rfl⟩ := Nat.exists_eq_add_one_of_ne_zero (Nat.ne_zero_of_lt enough)
    simp [Decoder.drain, fails]
  | @emit s s' t new events complete error turn halts ih =>
    obtain ⟨fuel, rfl⟩ := Nat.exists_eq_add_one_of_ne_zero (Nat.ne_zero_of_lt enough)
    have smaller := D.size_lt turn
    cases complete with
    | true =>
      obtain ⟨body, final, rfl, ends⟩ := marked.last turn
      refine .inr ⟨s', body, final, events, ?_, ends, rfl, halts, smaller⟩
      simp [Decoder.drain, turn]
    | false =>
      have none := marked.within turn
      have onward : D.drain 1 (fuel + 1) s 0 past = D.drain 1 fuel s' 0 (past ++ new) := by
        simp [Decoder.drain, turn]
      rw [onward]
      have less : D.size s' < fuel := by omega
      rcases ih (past ++ new) less with ⟨run, quiet⟩ | ⟨u, body, final, rest, run, ends, rfl, later, less⟩
      · refine .inl ⟨by rw [run, List.append_assoc], fun event member => ?_⟩
        exact (List.mem_append.mp member).elim (none event) (quiet event)
      · refine .inr ⟨u, new ++ body, final, rest, ?_, ends, by simp, later, less.trans smaller⟩
        rw [run]
        simp

theorem pump_push (calls : Nat) (s : σ) (data : List ι) :
    D.pump calls s data = D.pump calls (D.push s data) [] := by
  cases calls with
  | zero => rfl
  | succ calls => simp only [pump, feed, D.push_nil]

theorem Halts.pump (marked : D.Marked isEnd) {s t : σ} {events : List β} {error : Option ε}
    (halts : D.Halts s t events error) :
    ∃ calls, D.pump calls s [] = some (t, returned isEnd events error, error) := by
  induction size : D.size s using Nat.strong_induction_on generalizing s events with
  | _ size' ih =>
    have call {u : σ} : D.feed 1 u [] = D.drain 1 (D.size u + 1) u 0 [] := by rw [feed, D.push_nil]
    have one := halts.drain_one marked [] (Nat.lt_succ_self (D.size s))
    rcases one with ⟨run, quiet⟩ | ⟨s', body, final, rest, run, ends, rfl, later, less⟩
    · rw [← call, List.nil_append] at run
      cases error with
      | some error => exact ⟨1, by simp [Decoder.pump, run, returned, wholeMessages_of_none quiet]⟩
      | none =>
        cases events with
        | nil => exact ⟨1, by simp [Decoder.pump, run, returned]⟩
        | cons event events =>
          -- the call waited for input, so the next one returns nothing
          have idle : D.feed 1 t [] = (t, [], none) := by simp [call, Decoder.drain, halts.waits rfl]
          exact ⟨2, by simp [Decoder.pump, run, idle, returned]⟩
    · rw [← call, List.nil_append] at run
      obtain ⟨calls, pumped⟩ := ih _ (size ▸ less) later rfl
      refine ⟨calls + 1, ?_⟩
      rw [returned_append ends]
      simp only [Decoder.pump, run]
      cases body <;> simp [pumped]

/-- Pumping a decoder one message at a time is decoding without a quota, except that what a failed
call had decoded of its message is not returned. -/
theorem pump_eq_feed (marked : D.Marked isEnd) {s t : σ} {data : List ι} {events : List β}
    {error : Option ε} (run : D.feed 0 s data = (t, events, error)) :
    ∃ calls, D.pump calls s data = some (t, returned isEnd events error, error) := by
  rw [feed_eq_iff_halts] at run
  obtain ⟨calls, pumped⟩ := run.pump marked
  exact ⟨calls, by rw [pump_push, pumped]⟩

end Decoder
end Incremental
