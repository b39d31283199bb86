import TraceDebug.Bytes

/-!
# Opcodes

An instruction is told by its first byte. Frame replay needs to know which
instructions can open a call frame, and walking code needs the number of
immediate bytes that follow.
-/

namespace TraceDebug.Opcode

/-- Runs of defined opcodes: the first byte of a run and the names in order. -/
def runs : List (Nat × List String) :=
  [(0x00, ["STOP", "ADD", "MUL", "SUB", "DIV", "SDIV", "MOD", "SMOD", "ADDMOD", "MULMOD", "EXP",
      "SIGNEXTEND"]),
   (0x10, ["LT", "GT", "SLT", "SGT", "EQ", "ISZERO", "AND", "OR", "XOR", "NOT", "BYTE", "SHL",
      "SHR", "SAR", "CLZ"]),
   (0x20, ["KECCAK256"]),
   (0x30, ["ADDRESS", "BALANCE", "ORIGIN", "CALLER", "CALLVALUE", "CALLDATALOAD", "CALLDATASIZE",
      "CALLDATACOPY", "CODESIZE", "CODECOPY", "GASPRICE", "EXTCODESIZE", "EXTCODECOPY",
      "RETURNDATASIZE", "RETURNDATACOPY", "EXTCODEHASH", "BLOCKHASH", "COINBASE", "TIMESTAMP",
      "NUMBER", "DIFFICULTY", "GASLIMIT", "CHAINID", "SELFBALANCE", "BASEFEE", "BLOBHASH",
      "BLOBBASEFEE", "SLOTNUM"]),
   (0x50, ["POP", "MLOAD", "MSTORE", "MSTORE8", "SLOAD", "SSTORE", "JUMP", "JUMPI", "PC", "MSIZE",
      "GAS", "JUMPDEST", "TLOAD", "TSTORE", "MCOPY"]),
   (0x5f, (List.range 33).map fun n => s!"PUSH{n}"),
   (0x80, (List.range 16).map fun n => s!"DUP{n + 1}"),
   (0x90, (List.range 16).map fun n => s!"SWAP{n + 1}"),
   (0xa0, (List.range 5).map fun n => s!"LOG{n}"),
   (0xe6, ["DUPN", "SWAPN", "EXCHANGE"]),
   (0xf0, ["CREATE", "CALL", "CALLCODE", "RETURN", "DELEGATECALL", "CREATE2"]),
   (0xfa, ["STATICCALL"]),
   (0xfd, ["REVERT", "INVALID", "SELFDESTRUCT"])]

def name? (b : UInt8) : Option String :=
  runs.findSome? fun (first, names) =>
    if first ≤ b.toNat then names[b.toNat - first]? else none

abbrev jumpdest : UInt8 := 0x5b
abbrev create : UInt8 := 0xf0
abbrev call : UInt8 := 0xf1
abbrev return_ : UInt8 := 0xf3
abbrev delegateCall : UInt8 := 0xf4

/-- The instructions that run the code of their target argument in a new frame:
`CALL`, `CALLCODE`, `DELEGATECALL` and `STATICCALL`. -/
def isMessageCall (b : UInt8) : Bool := b == 0xf1 || b == 0xf2 || b == 0xf4 || b == 0xfa

/-- The instructions that run init code in a new frame: `CREATE` and `CREATE2`. -/
def isCreate (b : UInt8) : Bool := b == 0xf0 || b == 0xf5

def entersFrame (b : UInt8) : Bool := isMessageCall b || isCreate b

/-- `PUSH1` to `PUSH32` carry one to thirty-two immediate bytes. -/
def immediateSize (b : UInt8) : Nat :=
  if 0x60 ≤ b.toNat ∧ b.toNat ≤ 0x7f then b.toNat - 0x5f else 0

end TraceDebug.Opcode
