import PccGateway.Lib.Method
import PccGateway.Server.BodyStream

namespace PccGateway

inductive Direction where
  | inbound
  | outbound
  | both
  deriving DecidableEq, Repr

/-- `direction & INBOUND`. -/
def Direction.hasInbound : Direction → Bool
  | inbound | both => true
  | outbound => false

/-- `direction & OUTBOUND`. -/
def Direction.hasOutbound : Direction → Bool
  | outbound | both => true
  | inbound => false

/-- The exceptions of `channel.py`; a `PipelineError` has the stage's exception as its cause. -/
inductive PipelineExn where
  | channelClosed (message : String)
  | pipeline (message : String) (cause : Exn)
  deriving DecidableEq, Repr

/-- `attributes` stands for everything that the stages keep: the dictionary of the context and their
own fields. `closes` records the stages whose `close` was called with the context. -/
structure ChannelContext (σ : Type) where
  attributes : σ
  cancellation : Option Cancellation := none
  closed : Bool := false
  error : Option Exn := none
  closes : List Text := []

/-- `ChannelContext.close`. -/
def ChannelContext.close {σ : Type} (error : Option Exn) (context : ChannelContext σ) : ChannelContext σ :=
  { context with
    closed := true
    error := error
    cancellation := context.cancellation.map (·.cancel "channel closed") }

/-- What one method of a stage does: what it stores, whether it called `context.close(error)`, and
whether it returned or raised. -/
structure StageResult (σ β : Type) where
  attributes : σ
  closing : Option (Option Exn) := none
  outcome : Except Exn β

structure ChannelStage (σ μ : Type) where
  name : Text
  direction : Direction := .both
  inbound : Option μ → σ → StageResult σ (Option μ) := fun message attributes =>
    ⟨attributes, none, .ok message⟩
  outbound : Option μ → σ → StageResult σ (Option μ) := fun message attributes =>
    ⟨attributes, none, .ok message⟩
  close : σ → StageResult σ Unit := fun attributes => ⟨attributes, none, .ok ()⟩
  named : name ≠ []

structure ChannelPipeline (σ μ : Type) where
  stages : List (ChannelStage σ μ)
  distinct : (stages.map (·.name)).Nodup

namespace ChannelPipeline
variable {σ μ β : Type} {pipeline : ChannelPipeline σ μ} {context : ChannelContext σ}
  {stages : List (ChannelStage σ μ)}

def perform (call : σ → StageResult σ β) : Method (ChannelContext σ) Exn β := fun context =>
  let result := call context.attributes
  let context := { context with attributes := result.attributes }
  match result.closing with
  | none => (context, result.outcome)
  | some error => (context.close error, result.outcome)

/-- The loop of `inbound` and of `outbound` over the stages that the message meets. A stage that
returns `None` ends it. -/
def messageLoop (takes : ChannelStage σ μ → Bool)
    (method : ChannelStage σ μ → Option μ → σ → StageResult σ (Option μ)) :
    List (ChannelStage σ μ) → Option μ → Method (ChannelContext σ) Exn (Option μ)
  | [], current => pure current
  | stage :: rest, current =>
    if takes stage then do
      match ← perform (method stage current) with
      | none => return none
      | some message => messageLoop takes method rest (some message)
    else messageLoop takes method rest current

/-- `except Exception as error: context.close(error); raise PipelineError(message) from error`. -/
def closingOnError (message : String) (loop : Method (ChannelContext σ) Exn β) :
    Method (ChannelContext σ) PipelineExn β := fun context =>
  match loop context with
  | (context, .ok current) => (context, .ok current)
  | (context, .error error) => (context.close (some error), .error (.pipeline message error))

def inbound (pipeline : ChannelPipeline σ μ) (message : Option μ) :
    Method (ChannelContext σ) PipelineExn (Option μ) := fun context =>
  if context.closed then (context, .error (.channelClosed "inbound message on closed channel"))
  else closingOnError "inbound stage failed"
    (messageLoop (·.direction.hasInbound) (·.inbound) pipeline.stages message) context

def outbound (pipeline : ChannelPipeline σ μ) (message : Option μ) :
    Method (ChannelContext σ) PipelineExn (Option μ) := fun context =>
  if context.closed then (context, .error (.channelClosed "outbound message on closed channel"))
  else closingOnError "outbound stage failed"
    (messageLoop (·.direction.hasOutbound) (·.outbound) pipeline.stages.reverse message) context

/-- The loop of `close`, over the stages from the last to the first; it goes on past an exception and
keeps the first. -/
def closeLoop : List (ChannelStage σ μ) → Option Exn → ChannelContext σ → ChannelContext σ × Option Exn
  | [], firstError, context => (context, firstError)
  | stage :: rest, firstError, context =>
    match perform stage.close { context with closes := context.closes ++ [stage.name] } with
    | (context, .ok ()) => closeLoop rest firstError context
    | (context, .error error) => closeLoop rest (some (firstError.getD error)) context

def close (pipeline : ChannelPipeline σ μ) (context : ChannelContext σ) : ChannelContext σ :=
  if context.closed then context
  else
    let (context, firstError) := closeLoop pipeline.stages.reverse none { context with closed := true }
    { context with
      cancellation := context.cancellation.map (·.cancel "channel closed")
      error := if firstError.isSome then firstError else context.error }

end ChannelPipeline

/-- The calls that a connection makes on its pipeline. -/
inductive PipelineCall (μ : Type) where
  | inbound (message : Option μ)
  | outbound (message : Option μ)
  | close
  deriving Repr

def PipelineCall.isClose {μ : Type} : PipelineCall μ → Bool
  | close => true
  | _ => false

namespace ChannelPipeline
variable {σ μ β : Type} {pipeline : ChannelPipeline σ μ} {context : ChannelContext σ}
  {stages : List (ChannelStage σ μ)}

/-- The context after one call, whether it returned or raised. -/
def serve (pipeline : ChannelPipeline σ μ) (context : ChannelContext σ) : PipelineCall μ → ChannelContext σ
  | .inbound message => (pipeline.inbound message context).1
  | .outbound message => (pipeline.outbound message context).1
  | .close => pipeline.close context

def run (pipeline : ChannelPipeline σ μ) (context : ChannelContext σ)
    (calls : List (PipelineCall μ)) : ChannelContext σ :=
  calls.foldl pipeline.serve context

/-- `self.stages` in the order in which `close` goes through them. -/
def closingOrder (pipeline : ChannelPipeline σ μ) : List Text := (pipeline.stages.map (·.name)).reverse

@[simp] theorem perform_closes (call : σ → StageResult σ β) :
    (perform call context).1.closes = context.closes := by
  unfold perform
  dsimp only
  split <;> rfl

theorem perform_closed (call : σ → StageResult σ β) (closed : context.closed = true) :
    (perform call context).1.closed = true := by
  unfold perform
  dsimp only
  split
  · exact closed
  · rfl

theorem messageLoop_closes (takes : ChannelStage σ μ → Bool)
    (method : ChannelStage σ μ → Option μ → σ → StageResult σ (Option μ))
    (message : Option μ) (context : ChannelContext σ) :
    (messageLoop takes method stages message context).1.closes = context.closes := by
  induction stages generalizing message context with
  | nil => rfl
  | cons stage rest ih =>
    unfold messageLoop
    split
    · have kept := @perform_closes _ _ context (method stage message)
      rw [Method.bind_run]
      split <;> rename_i performed <;> rw [performed] at kept
      · split
        · exact kept
        · rw [ih, ← kept]
      · exact kept
    · exact ih message context

theorem closingOnError_closes {message : String} {loop : Method (ChannelContext σ) Exn β}
    (kept : (loop context).1.closes = context.closes) :
    (closingOnError message loop context).1.closes = context.closes := by
  unfold closingOnError
  split <;> rename_i ran <;> rw [ran] at kept <;> exact kept

/-- A message calls the `close` of no stage. -/
theorem serve_message {call : PipelineCall μ} (message : call.isClose = false)
    (context : ChannelContext σ) :
    (pipeline.serve context call).closes = context.closes := by
  cases call with
  | inbound message =>
    simp only [serve, inbound]
    split
    · rfl
    · exact closingOnError_closes (messageLoop_closes _ _ _ _)
  | outbound message =>
    simp only [serve, outbound]
    split
    · rfl
    · exact closingOnError_closes (messageLoop_closes _ _ _ _)
  | close => cases message

theorem run_messages {calls : List (PipelineCall μ)} (messages : ∀ call ∈ calls, call.isClose = false)
    (context : ChannelContext σ) :
    (pipeline.run context calls).closes = context.closes := by
  induction calls generalizing context with
  | nil => rfl
  | cons call calls ih =>
    rw [run, List.foldl_cons]
    exact (ih (fun call member => messages call (List.mem_cons_of_mem _ member)) _).trans
      (serve_message (messages call (List.mem_cons_self ..)) context)

/-- Nothing happens on a closed context. -/
theorem serve_closed (closed : context.closed = true) (call : PipelineCall μ) :
    pipeline.serve context call = context := by
  cases call <;> simp only [serve, inbound, outbound, close, closed, if_true]

theorem run_closed (closed : context.closed = true) (calls : List (PipelineCall μ)) :
    pipeline.run context calls = context := by
  induction calls with
  | nil => rfl
  | cons call calls ih =>
    rw [run, List.foldl_cons, serve_closed closed]
    exact ih

theorem closeLoop_spec (firstError : Option Exn) (closed : context.closed = true) :
    (closeLoop stages firstError context).1.closes = context.closes ++ stages.map (·.name) ∧
      (closeLoop stages firstError context).1.closed = true := by
  induction stages generalizing firstError context with
  | nil => exact ⟨by simp [closeLoop], closed⟩
  | cons stage rest ih =>
    have kept := @perform_closes _ _ { context with closes := context.closes ++ [stage.name] } stage.close
    have still := @perform_closed _ _ { context with closes := context.closes ++ [stage.name] }
      stage.close closed
    unfold closeLoop
    split <;> rename_i performed <;> rw [performed] at kept still <;> simp only at kept
    · simpa [kept] using ih firstError still
    · simpa [kept] using ih _ still

/-- The first `close` on an open context goes through all stages. -/
theorem close_open (opened : context.closed = false) :
    (pipeline.close context).closes = context.closes ++ pipeline.closingOrder ∧
    (pipeline.close context).closed = true := by
  have spec := @closeLoop_spec _ _ { context with closed := true } pipeline.stages.reverse none rfl
  simp only [close, opened, Bool.false_eq_true, if_false, closingOrder, ← List.map_reverse]
  exact spec

/-- What the calls up to and with the first `close` left is final. -/
theorem run_close (before after : List (PipelineCall μ))
    (messages : ∀ call ∈ before, call.isClose = false) :
    (pipeline.run context (before ++ .close :: after)).closes =
      if (pipeline.run context before).closed then context.closes else context.closes ++
        pipeline.closingOrder := by
  have kept := @run_messages _ _ pipeline _ messages context
  have split : pipeline.run context (before ++ .close :: after) =
      pipeline.run (pipeline.close (pipeline.run context before)) after := by
    simp only [run, List.foldl_append, List.foldl_cons, serve]
  rw [split]
  cases closed : (pipeline.run context before).closed with
  | true =>
    have idle : pipeline.close (pipeline.run context before) = pipeline.run context before :=
      serve_closed closed .close
    rw [idle, run_closed closed, kept, if_pos rfl]
  | false =>
    obtain ⟨closes, shut⟩ := @close_open _ _ pipeline _ closed
    rw [run_closed shut, closes, kept, if_neg Bool.false_ne_true]

/-- When `close` is called at all, each stage is closed exactly once and in reverse order exactly
when the context is still open at the first `close`: no message failed on it before. What is assumed
is that some call closes. The stages are any, and so are the messages and what the stages do with
them; the condition is on the context in front of the first `close`. -/
theorem stages_closed_iff (pipeline : ChannelPipeline σ μ) (context : ChannelContext σ)
    (calls : List (PipelineCall μ)) (asked : ∃ call ∈ calls, call.isClose = true) :
    (pipeline.run context calls).closes = context.closes ++ (pipeline.stages.map (·.name)).reverse ↔
      pipeline.stages = [] ∨ (pipeline.run context (calls.takeWhile (!·.isClose))).closed = false := by
  obtain ⟨after, split⟩ : ∃ after, calls = calls.takeWhile (!·.isClose) ++ .close :: after := by
    obtain ⟨call, member, closing⟩ := asked
    cases rest : calls.dropWhile (!·.isClose) with
    | nil => simpa [closing] using List.dropWhile_eq_nil_iff.mp rest call member
    | cons first after =>
      have stops := List.head?_dropWhile_not (!·.isClose) calls
      rw [rest] at stops
      cases first with
      | close => exact ⟨after, by rw [← rest, List.takeWhile_append_dropWhile]⟩
      | inbound => simp [PipelineCall.isClose] at stops
      | outbound => simp [PipelineCall.isClose] at stops
  have messages : ∀ call ∈ calls.takeWhile (!·.isClose), call.isClose = false := fun call member => by
    simpa using List.mem_takeWhile_imp member
  have spec := @run_close _ _ pipeline context _ after messages
  rw [← split] at spec
  rw [spec]
  cases (pipeline.run context (calls.takeWhile (!·.isClose))).closed <;> simp [closingOrder]

end ChannelPipeline

/-- One direction of a `ByteLimitStage`: the bytes of its messages are counted in the attributes. -/
def limitBytes (key : Text) (limit : Int) (failure : String) (message : Option Bytes)
    (attributes : List (Text × Int)) :
    StageResult (List (Text × Int)) (Option Bytes) :=
  match message with
  | none => ⟨attributes, none, .error .external⟩
  | some data =>
    let count := (attributes.lookup key).getD 0 + data.length
    if limit < count then ⟨attributes, none, .error (.value failure)⟩
    else ⟨(key, count) :: attributes, none, .ok (some data)⟩

def byteLimitStage (name : Text) (maxInbound maxOutbound : Int) (named : name ≠ []) :
    ChannelStage (List (Text × Int)) Bytes where
  name := name
  inbound := limitBytes (name ++ ".in".toList) maxInbound "channel inbound byte limit exceeded"
  outbound := limitBytes (name ++ ".out".toList) maxOutbound "channel outbound byte limit exceeded"
  named := named

namespace ChannelPipeline

/-- Two stages of which the second one admits four bytes in either direction. -/
def limited : ChannelPipeline (List (Text × Int)) Bytes where
  stages := [byteLimitStage "wide".toList 64 64 (by decide), byteLimitStage "narrow".toList 4 4 (by decide)]
  distinct := by decide

theorem stages_closed_iff_limited :
    (limited.run { attributes := [] } [.inbound (some (ascii "four")), .close]).closes =
    ["narrow".toList, "wide".toList] :=
  (stages_closed_iff limited { attributes := [] } [.inbound (some (ascii "four")), .close]
    ⟨.close, by simp, rfl⟩).mpr
    (.inr (by decide))

/-- After a message that is too long `close` closes no stage, however often it is called. -/
theorem stages_not_closed_after_failure :
    let context := limited.run { attributes := [] } [.inbound (some (ascii "five!")), .close, .close]
    context.closed = true ∧ context.closes = [] ∧ limited.closingOrder =
      ["narrow".toList, "wide".toList] := by
  decide

end ChannelPipeline
end PccGateway
