import Mathlib.Data.BitVec
import Mathlib.Data.Fintype.EquivFin

/-!
# Chain identifiers

Account addresses and transaction signatures are fixed-width bit strings. The three
static tokens are the ones every trade is priced in and no trade is tracked for.
-/

namespace Biscuit

/-- A 32-byte account address. -/
abbrev Pubkey := BitVec 256

/-- There are finitely many addresses. -/
instance : Finite Pubkey := Finite.of_equiv _ (BitVec.equivFin (m := 256)).toEquiv.symm

/-- A 64-byte transaction signature. -/
abbrev Signature := BitVec 512

/-- Signatures are looked up in lists by their bits. -/
instance : LawfulBEq Signature := inferInstanceAs (LawfulBEq (BitVec 512))

/-- `So11111111111111111111111111111111111111112` -/
def SOL : Pubkey := 0x069b8857feab8184fb687f634618c035dac439dc1aeb3b5598a0f00000000001#256

/-- `EPjFWdd5AufqSSqeM2qN1xzybapC8G4wEGGkZwyTDt1v` -/
def USDC : Pubkey := 0xc6fa7af3bedbad3a3d65f36aabc97431b1bbe4c2d2f6e0e47ca60203452f5d61#256

/-- `Es9vMFrzaCERmJfrF4H2FYD4KCoNkY11McCe8BenwNYB` -/
def USDT : Pubkey := 0xce010e60afedb22717bd63192f54145a3f965a33bb82d2c7029eb2ce1e208264#256

/-- Whether a token is one of the three that are never tracked. -/
def isStaticToken (token : Pubkey) : Bool := token == SOL || token == USDT || token == USDC

end Biscuit
