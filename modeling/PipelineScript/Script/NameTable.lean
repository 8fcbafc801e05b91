import PipelineScript.Failure.CompileError
import PipelineScript.Description.NodeKind
import PipelineScript.Table
import PipelineScript.Text.LowerCase
import PipelineScript.Text.Name

/-
  The names that nodes have in a script.

  A name is made from the kind and the key of a node. Names
  that the script uses for itself are refused, and a name is
  given once, to one node.

  Key definitions include:
    * `nodeName`
    * `reservedNames`
    * `NameTable`
    * `NameTable.give`
    * `NameTable.assign`
-/

namespace PipelineScript

------------------------------------------------------------
-- Making Names
------------------------------------------------------------

/- A character that stands for itself, or else for nothing. -/
def nameChar (c : Char) : Char :=
  if Text.isNamePart c then c else '_'

/- A name cannot begin with a digit. -/
def guardDigit (cs : List Char) : List Char :=
  match cs with
  | c :: _ => if c.isDigit then '_' :: cs else cs
  | [] => []

/- The name of a node: its tag in small letters and its key. -/
def nodeName (kind : NodeKind) (id : NodeId) : String :=
  String.ofList
    (guardDigit
      (((Text.lowerCase kind.tag).toList
          ++ '_' :: id.text.toList).map nameChar))

/- The names that blocks and the entry routine bind. -/
def reservedNames : List String :=
  [ -- the entry routine
    "device",
    -- loading data
    "dataset_path", "batch_size", "shuffle", "base_transform",
    "temp_dataset",
    -- augmenting images
    "aug_transforms", "augmentation_transform",
    "upstream_dataset",
    -- training models
    "model_type", "temp_model", "criterion", "learning_rate",
    "epochs", "optimizer_type", "beta1", "beta2", "momentum",
    "temp_optimizer", "epoch", "running_loss", "datapoint",
    "labels", "outputs", "loss", "avg_loss"]

------------------------------------------------------------
-- Giving Names
------------------------------------------------------------

/-
  The names that were given: which name the node in a place
  has, and which node has a name.
-/
structure NameTable where
  byPlace : Table Nat String
  owners : Table String NodeId
deriving DecidableEq, Repr

namespace NameTable

/- No names. -/
def empty : NameTable where
  byPlace := .empty
  owners := .empty

/- How many names were given. -/
def size (table : NameTable) : Nat :=
  table.byPlace.size

/- No name was given. -/
def isEmpty (table : NameTable) : Bool :=
  table.byPlace.isEmpty

/- The name of the node in a place. -/
def get?
    (table : NameTable)
    (place : Nat) : Option String :=
  table.byPlace.get? place

/- The node that has a name. -/
def owner?
    (table : NameTable)
    (name : String) : Option NodeId :=
  table.owners.get? name

/-
  Give a name to the node in a place. What is left of the table
  when a name is refused is part of the answer.
-/
def give
    (table : NameTable)
    (place : Nat)
    (node : NodeId)
    (name : String) :
    NameTable × Except CompileError Unit :=
  if reservedNames.contains name then
    (table, .error (.validation (.reservedIdentifier node name)))
  else
    match table.get? place with
    | some existing =>
        (table, .error (.validation (.alreadyNamed node existing)))
    | none =>
        match table.owner? name with
        | some owner =>
            (table,
              .error (.validation
                (.identifierClash owner node name)))
        | none =>
            let owned : NameTable :=
              { table with
                owners := table.owners.insert name node }
            ({ owned with
                byPlace := owned.byPlace.insert place name },
              .ok ())

/- The table behind a name that is not refused. -/
def assign
    (table : NameTable)
    (place : Nat)
    (node : NodeId)
    (name : String) : Except CompileError NameTable :=
  match table.give place node name with
  | (next, .ok ()) => .ok next
  | (_, .error error) => .error error

end NameTable

end PipelineScript
