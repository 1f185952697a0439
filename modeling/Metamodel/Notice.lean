import Metamodel.Ident
import Metamodel.Text.Quoted

/-!
# Metamodel.Notice -- what operations report as they go

A notice says that something has been done. Notices are no part of a repository: they come with the
outcome of a step, in the order of what they report.
-/

namespace Metamodel

/-- Something that has been done. -/
inductive Notice where
  | templateMade (name kind : String) (model : ModelId)
  | memberDefined (datatype role : String)
  | memberRemoved (datatype role : String)
  /-- A member has been pushed to so many instances besides the template. -/
  | propagated (datatype role : String) (instances : Nat)
  | instanceMade (datatype path : String) (id : ObjectId)
  | elementMade (path : String)
  | released (id : ObjectId) (count : Nat)
  | atomsRegistered (count : Nat)
  | limitsRead (path : String)
deriving DecidableEq, Repr

/-- How much detail a notice gives. -/
inductive Notice.Level where
  | debug
  | trace
deriving DecidableEq, Repr

/-- The name of a level. -/
def Notice.Level.text : Notice.Level → String
  | .debug => "DEBUG"
  | .trace => "TRACE"

/-- Single instances and elements are details. -/
def Notice.level : Notice → Notice.Level
  | .instanceMade .. => .trace
  | .elementMade _ => .trace
  | _ => .debug

/-- The wording of a notice. -/
def Notice.message : Notice → String
  | .templateMade name kind model =>
    "[xmodel::repository] new template " ++ Text.quoted name ++ " kind=" ++ kind ++
      " (" ++ model.text ++ ")"
  | .memberDefined datatype role => "[xmodel::repository] define " ++ datatype ++ "." ++ role
  | .memberRemoved datatype role => "[xmodel::repository] remove " ++ datatype ++ "." ++ role
  | .propagated datatype role instances =>
    "[xmodel::propagate] " ++ datatype ++ "." ++ role ++ " -> " ++ toString instances ++
      " instance(s)"
  | .instanceMade datatype path id =>
    "[xmodel::instance] " ++ datatype ++ " instance " ++ Text.quoted path ++ " -> " ++ id.text
  | .elementMade path => "[xmodel::collection] materialized " ++ path
  | .released id count =>
    "[xmodel::propagate] released " ++ id.text ++ " (" ++ toString count ++ " object(s))"
  | .atomsRegistered count => "[xtypes] " ++ toString count ++ " atoms registered"
  | .limitsRead path => "[xmodel::config] loading " ++ path

/-- A notice with its level in front. -/
def Notice.text (n : Notice) : String :=
  n.level.text ++ " " ++ n.message

end Metamodel
