import ValueNumbering.IR.Module

/-! The textual form of functions and modules, line by line. -/

namespace ValueNumbering

def Argument.listing (arg : Argument) : String := s!"{arg.type} %{arg.name}"

def Block.listing (block : Block) : Except OperandFault (List String) := do
  let body ← block.instructions.mapM (·.written)
  return (block.name ++ ":") :: body.map ("  " ++ ·)

def Block.listings : List Block → Except OperandFault (List String)
  | [] => .ok []
  | [block] => block.listing
  | block :: more => do
      let first ← block.listing
      let rest ← Block.listings more
      return first ++ "" :: rest

def Function.parameterText (fn : Function) : String :=
  ", ".intercalate (fn.arguments.map (·.listing))

/-- A function without blocks is listed as a declaration. -/
def Function.listing (fn : Function) : Except OperandFault (List String) :=
  if fn.isDeclaration then
    .ok [s!"declare {fn.returnType} @{fn.name}({fn.params.getD fn.parameterText})"]
  else do
    let body ← Block.listings fn.blocks
    return (s!"define {fn.returnType} @{fn.name}({fn.parameterText}) " ++ "\x7b") ::
      (body ++ ["\x7d"])

/-- A global that is only referred to is listed as an external one. -/
def Global.listing (global : Global) : String :=
  s!"@{global.name} = " ++ global.initializer.getD "external global i32"

def Module.listing (m : Module) : Except OperandFault (List String) := do
  let functions ← m.functions.mapM fun fn => do
    let body ← fn.listing
    return "" :: body
  return s!"; ModuleID = '{m.name}'" :: (m.globals.values.map (·.listing) ++ functions.flatten)

end ValueNumbering
