import CallTree.Data.Scalar

/-!
# Options of a walk
-/

namespace CallTree.Walk

open CallTree.Data

/-- **How to walk.** -/
structure Options where
  /-- The depth at which methods are listed and no longer expanded. -/
  maxDepth : Nat := 64
  /-- Whether methods that differ in their parameters only are told apart. -/
  overloadAwareKeys : Bool := false
  /-- Whether a method that is reached by another path is expanded again. A
  method that is being expanded never is. -/
  expandRepeatedPaths : Bool := false
  /-- Whether calls through properties are followed as calls through fields are. -/
  unifyPropertyDependencies : Bool := false
deriving DecidableEq, Repr, Inhabited

/-- The options from a record. -/
def Options.ofRecord (r : Value) : Checked Options :=
  .ap (.ap (.ap (.ap (.ok Options.mk)
    (.optional (fun v => (asIntBetween 1 200 v).map Int.toNat) 64 "max_depth" r))
    (.optional asBool false "overload_aware_keys" r))
    (.optional asBool false "expand_repeated_paths" r))
    (.optional asBool false "unify_property_dependencies" r)

/-- The options as a record. -/
def Options.record (o : Options) : Value :=
  .record [("max_depth", .int o.maxDepth), ("overload_aware_keys", .bool o.overloadAwareKeys),
    ("expand_repeated_paths", .bool o.expandRepeatedPaths),
    ("unify_property_dependencies", .bool o.unifyPropertyDependencies)]

end CallTree.Walk
