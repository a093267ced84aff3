import Centrald.Client.Broker

/-!
# `Centrald.Client.ResultMap`: the ledger as a map from jobs to results

The calls of `BrokerLedger` (`ledger.rs`) on one file, in any order and at
any times, beside the map that the file stands for. A `record_completed`
that returns puts the response of its job into the map, with its time.

An append can be cut: the process dies or the write fails, and a first
part of the line is in the file. The next call finds it as a torn tail. A
new process opens the ledger without touching the file.
-/

set_option autoImplicit false

namespace Centrald.Client

open Durable Common Platform Client.Ledger

/-- A call of `BrokerLedger`. An append compacts at `clock`, and is cut
after `cut` bytes if that is given. -/
inductive LedgerCall where
  | reopen
  | lookup (job : Nat) (now : Int)
  | markExecuting (job : Nat) (operation : GrantOperation) (now clock : Int) (order : HashOrder)
      (cut : Option Nat)
  | recordCompleted (job : Nat) (response : BrokerResponse) (now clock : Int) (order : HashOrder)
      (cut : Option Nat)

/-- The ledger file, and the results of the jobs. -/
structure LedgerResults where
  file : Option Bytes
  results : Nat → Option (BrokerResponse × Int)

/-- `append`, whole or cut. -/
def appendUpTo (env : LedgerEnv) (clock : Int) (order : HashOrder) (cut : Option Nat)
    (record : LedgerRecord) : LedgerM Unit :=
  appendCut env clock order record (cut.getD (recordLine env record).length)

/-- The calls, one after the other. -/
def ledgerResults (env : LedgerEnv) : Machine LedgerResults LedgerCall where
  step s
    | .reopen => some s
    | .lookup job now => some { s with file := (runLedger (Ledger.lookup env job now) s.file).2 }
    | .markExecuting job operation now clock order cut =>
      some { s with
        file := (runLedger (markExecutingWith env job operation now
          (appendUpTo env clock order cut)) s.file).2 }
    | .recordCompleted job response now clock order cut =>
      let (result, file) := runLedger (recordCompletedWith env job response now
        (appendUpTo env clock order cut)) s.file
      some
        { file
          results := if result.isOk ∧ cut = none then
            Function.update s.results job (some (response, now)) else s.results }

end Centrald.Client
