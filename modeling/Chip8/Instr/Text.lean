/-
How an instruction is reported: its name, and after it in parentheses
its operands in decimal, in the order in which the word holds them.
-/
import Chip8.Instr.Basic

namespace Chip8

/-- The name under which an operation on two registers is reported. -/
def RegOp.name : RegOp → String
  | .move => "AssignVyToVx"
  | .or => "BitOpOr"
  | .and => "BitOpAnd"
  | .xor => "BitOpXor"
  | .add => "MathVxAddVy"
  | .sub => "MathVxMinusVy"
  | .shiftRight => "BitOpRtShift"
  | .subFrom => "MathVyMinusVx"
  | .shiftLeft => "BitOpLftShift"

/-- The name under which an instruction is reported. -/
def Instr.name : Instr → String
  | .clear => "DispClear"
  | .ret => "Return"
  | .jump _ => "Goto"
  | .call _ => "GotoSubRtn"
  | .skipIfByte .. => "CondVxEq"
  | .skipUnlessByte .. => "CondVxNe"
  | .skipIfSame .. => "CondVxVyEq"
  | .setByte .. => "ConstSetVx"
  | .addByte .. => "ConstAddVx"
  | .combine op _ _ => op.name
  | .skipUnlessSame .. => "CondVxVyNe"
  | .setIndex _ => "MemSetI"
  | .jumpPast _ => "GotoPlusV0"
  | .random .. => "Rand"
  | .draw .. => "DispDraw"
  | .skipIfKey _ => "KeyOpEqVx"
  | .skipUnlessKey _ => "KeyOpNeVx"
  | .getDelay _ => "DelayGet"
  | .awaitKey _ => "KeyOpGet"
  | .setDelay _ => "DelaySet"
  | .setSound _ => "SoundSet"
  | .addIndex _ => "MemIPlusEqVx"
  | .glyph _ => "MemISetSprite"
  | .decimal _ => "Bcd"
  | .store _ => "RegDump"
  | .load _ => "RegLoad"

/-- The operands of an instruction, in the order of its word. -/
def Instr.operands : Instr → List Nat
  | .clear | .ret => []
  | .jump t | .call t | .setIndex t | .jumpPast t => [t.val]
  | .skipIfByte x b | .skipUnlessByte x b | .setByte x b | .addByte x b | .random x b =>
    [x.val, b.toNat]
  | .skipIfSame x y | .skipUnlessSame x y | .combine _ x y => [x.val, y.val]
  | .draw x y n => [x.val, y.val, n.val]
  | .skipIfKey x | .skipUnlessKey x | .getDelay x | .awaitKey x | .setDelay x
  | .setSound x | .addIndex x | .glyph x | .decimal x | .store x | .load x => [x.val]

/-- An instruction as it is reported, such as `Return` or
`DispDraw(0, 1, 5)`. -/
def Instr.text (i : Instr) : String :=
  match i.operands with
  | [] => i.name
  | ns => i.name ++ "(" ++ String.intercalate ", " (ns.map toString) ++ ")"

end Chip8
