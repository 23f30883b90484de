import Amalgam.Bucket
import Amalgam.Event
import Amalgam.Schedule

/-! # The outcome of a bucket

The fragments of a bucket are taken in scheduled order. The first one with a relative path owns the
path of the bucket, and one after it with another path, or none, is in conflict with it. A fragment
in conflict or without readable content makes the bucket one failed item; else the bucket becomes
one source that holds the merged contents.
-/

namespace Amalgam

inductive BucketFailure where
  | conflict (owner offender : Fragment)
  | unreadable (fragment : Fragment) (e : ReadError)
deriving DecidableEq

namespace Bucket

def schedule (bucket : List Fragment) : Schedule Fragment :=
  .ofEntries (fun f => f.source) bucket

/-- The owner of the path after one more fragment, unless that one is in conflict. -/
def nextOwner (owner : Option Fragment) (f : Fragment) : Except BucketFailure (Option Fragment) :=
  match owner with
  | none => .ok (if f.source.relativePath.isSome then some f else none)
  | some o =>
    if f.source.relativePath = o.source.relativePath then .ok (some o) else .error (.conflict o f)

def gather (tree : FileTree) (owner : Option Fragment) :
    List Fragment → Except BucketFailure (List Merge.Part × Option Fragment)
  | [] => .ok ([], owner)
  | f :: rest => do
    let owner ← nextOwner owner f
    let content ← (f.source.content.read tree).mapError (.unreadable f)
    let (parts, owner) ← gather tree owner rest
    return (⟨f.source.filename, content⟩ :: parts, owner)

def mergeKind (key : BucketKey) (parts : List Merge.Part) : Merge.MergeKind :=
  .resolve key.groupingKey (parts.map (·.filename))

def mergedItem (module : ModuleInfo) (key : BucketKey) (parts : List Merge.Part)
    (relativePath : Option Text) : Item :=
  let kind := mergeKind key parts
  let source :=
    NativeSource.single key.groupingKey (.text (kind.merge parts)) (kind.placed relativePath)
  .generated module (.payload (.native source)) key.platform

def conflictReport (module : ModuleInfo) (owner offender : Fragment) : Report :=
  let expected := pathLabel owner.source.relativePath
  let got := pathLabel offender.source.relativePath
  { code := "output-path-conflict"
    message :=
      "Modules with single_file_codegen enabled must have generated files output to the same " ++
        "directory or package. Found '" ++ expected ++ "' from '" ++ owner.source.filename ++
        "' (emitted by '" ++ owner.item.displayPath ++ "') vs '" ++ got ++ "' from " ++
        "'" ++ offender.source.filename ++ "' (emitted by '" ++ offender.item.displayPath ++ "')"
    module := some module.name
    site := owner.site
    conflicting := offender.site
    cause := none }

def unreadableReport (module : ModuleInfo) (f : Fragment) (e : ReadError) : Report where
  code := "native-source-read-failed"
  message := "failed to read generated native source '" ++ f.source.filename ++ "': " ++ e.message
  module := some module.name
  site := f.site
  conflicting := .unknown
  cause := some (.read e)

def failedItem (module : ModuleInfo) : BucketFailure → Item
  | .conflict owner offender =>
    offender.item.withProblem (.report (conflictReport module owner offender))
  | .unreadable f e => f.item.withProblem (.report (unreadableReport module f e))

/-- The one item of a bucket. Only a path that does not get to the system ends the pass instead. -/
def outcome (tree : FileTree) (module : ModuleInfo) (key : BucketKey) (bucket : List Fragment) :
    Except ReadError Item :=
  match gather tree none (schedule bucket).order with
  | .ok (parts, owner) =>
    .ok (mergedItem module key parts (owner.bind fun o => o.source.relativePath))
  | .error (.unreadable f e) =>
    if e.isExpected then .ok (failedItem module (.unreadable f e)) else .error e
  | .error failure => .ok (failedItem module failure)

def events (tree : FileTree) (key : BucketKey) (bucket : List Fragment) : List Event :=
  let s := schedule bucket
  let cycle := (s.cycle? fun f => f.source).toList.map .dependencyCycle
  match gather tree none s.order with
  | .ok (parts, _) =>
    cycle ++ [.bucketMerged parts.length key.groupingKey (mergeKind key parts) key.platform]
  | .error _ => cycle

end Bucket

end Amalgam
