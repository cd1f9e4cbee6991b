import KeyFile.Command.Run
import KeyFile.Proofs.Encoding.PrivateKeys

/-!
# What runs write

A loop that writes gets as far as the first item that has no rendering, and what it has written
until then stays written. Keys always have a rendering, since the identifiers in the tables are read
back from their texts; so a run that has loaded its keys writes all that there is to write, and a
run that fails has not begun to write.
-/
namespace KeyFile

namespace Command

/-! ## Loops that write -/

namespace Writing

variable {α β : Type} {render : α → Except Failure String} {items : List α} {text : α → String}

theorem result_bind (first : Writing α) (next : α → Writing β) (before : String) :
    (first >>= next).result before =
      match first.result before with
      | (.ok a, written) => (next a).result written
      | (.error failure, written) => (.error failure, written) := by
  simp only [result, ExceptT.run_bind, StateT.run_bind, Id.run_bind]
  rcases Id.run (StateT.run first.run before) with ⟨_ | _, _⟩ <;> rfl

@[simp] theorem result_lift (outcome : Except Failure α) (before : String) :
    (liftM outcome : Writing α).result before = (outcome, before) := rfl

@[simp] theorem result_print (text before : String) :
    (print text).result before = (.ok (), before ++ text) := rfl

theorem each_cons (render : α → Except Failure String) (item : α) (rest : List α) :
    each render (item :: rest) = (do
      let text ← render item
      print text
      each render rest) := by
  simp only [each, List.forM_eq_forM, List.forM_cons, bind_assoc]

/-- The renderings of the items before the first one that has none. -/
def rendered (render : α → Except Failure String) : List α → List String
  | [] => []
  | item :: rest =>
    match render item with
    | .ok text => text :: rendered render rest
    | .error _ => []

/-- Whether or not a loop comes to its end, the items that it has passed have been written. -/
theorem result_each (render : α → Except Failure String) (items : List α) (before : String) :
    (each render items).result before =
      ((fun _ => ()) <$> items.mapM render, before ++ String.join (rendered render items)) := by
  -- What is written by an item stands before all that the rest of the loop writes.
  induction items generalizing before with
  | nil => rw [rendered, String.join_nil, String.append_empty]; rfl
  | cons item rest ih =>
    rw [each_cons, result_bind, result_lift, List.mapM_cons, rendered]
    cases given : render item with
    | error failure =>
      simp only [String.join_nil, String.append_empty]
      rfl
    | ok text =>
      simp only [result_bind, result_print, ih, String.join_cons, String.append_assoc]
      rw [Outcome.bind_of_ok rfl]
      cases rest.mapM render <;> rfl

theorem rendered_of_ok (every : ∀ item ∈ items, render item = .ok (text item)) :
    rendered render items = items.map text := by
  induction items with
  | nil => rfl
  | cons item rest ih =>
    have later := ih fun other member => every other (List.mem_cons_of_mem item member)
    rw [rendered, every item List.mem_cons_self, List.map_cons]
    simp only [later]

/-- A loop over items that all have a rendering writes all of them. -/
theorem result_each_of_ok (every : ∀ item ∈ items, render item = .ok (text item))
    (before : String) :
    (each render items).result before = (.ok (), before ++ String.join (items.map text)) := by
  have passed : items.mapM render = .ok (items.map text) := by
    rw [Outcome.mapM_eq_ok_iff, List.map_map]
    exact List.map_congr_left every
  rw [result_each, passed, rendered_of_ok every]
  rfl

end Writing

/-! ## Requests -/

/-- The keys written anew, one armored block after another. -/
def converted (keys : List PrivateKey) : Text :=
  keys.flatMap fun key => key.toBlock.render ++ ['\n']

/-- Reports on keys: with a blank line between them in text, and as an array in JSON if all keys
were asked for. -/
def inspected (settings : Settings) (keys : List PrivateKey) : String :=
  let summaries := keys.map Summary.ofKey
  match settings.output.getD .text with
  | .text => "\n".intercalate (summaries.map (Summary.text settings.showIdentifier))
  | .json =>
    if settings.all then (Json.array (summaries.map Summary.json)).render ++ "\n"
    else String.join (summaries.map fun summary => summary.json.render ++ "\n")

theorem ofList_converted (keys : List PrivateKey) :
    String.ofList (converted keys) =
      String.join (keys.map fun key => String.ofList key.toBlock.render ++ "\n") := by
  rw [← String.toList_inj, String.toList_join, List.flatMap_map, String.toList_ofList, converted]
  simp only [String.toList_append, String.toList_ofList]
  rfl

theorem result_convert (keys : List PrivateKey) (before : String) :
    (convert keys).result before = (.ok (), before ++ String.ofList (converted keys)) := by
  have every : ∀ key ∈ keys, rewritten key = .ok (String.ofList key.toBlock.render ++ "\n") := by
    intro key _
    rw [rewritten, PrivateKey.armor_eq]
    rfl
  rw [convert, Writing.result_each_of_ok every, ofList_converted]

theorem result_inspect (settings : Settings) (keys : List PrivateKey) (before : String) :
    (inspect settings keys).result before = (.ok (), before ++ inspected settings keys) := by
  unfold inspect inspected
  cases settings.output.getD .text with
  | text => rfl
  | json =>
    cases settings.all with
    | true => rfl
    | false =>
      have every : ∀ summary ∈ keys.map Summary.ofKey,
          (.ok (summary.json.render ++ "\n") : Except Failure String) =
            .ok (summary.json.render ++ "\n") := fun _ _ => rfl
      exact Writing.result_each_of_ok every before

namespace Request

variable {request : Request} {input : Except ReadError Bytes} {held : Option Text}

/-- All that a request writes once its keys are loaded. -/
def output (request : Request) (keys : List PrivateKey) : String :=
  match request.action with
  | .inspect => inspected request.settings keys
  | .convert => String.ofList (converted keys)

/-- A run that has loaded its keys writes all of them. -/
theorem outcome_of_keys {keys : List PrivateKey}
    (loaded : request.settings.keys input held = .ok keys) :
    request.outcome input held = ⟨0, request.output keys, ""⟩ := by
  rw [outcome, run, output, Writing.result_bind, Writing.result_lift, loaded]
  cases request.action with
  | inspect => simp only [result_inspect, String.empty_append]
  | convert => simp only [result_convert, String.empty_append]

/-- A run that fails to load them has written nothing. -/
theorem outcome_of_failure {failure : Failure}
    (failed : request.settings.keys input held = .error failure) :
    request.outcome input held = ⟨1, "", failure.report⟩ := by
  rw [outcome, run, Writing.result_bind, Writing.result_lift, failed]

end Request

end Command

end KeyFile
