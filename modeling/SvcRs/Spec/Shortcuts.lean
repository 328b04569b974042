import SvcRs.ForStd.Decimal
import SvcRs.Spec.Run
import SvcRs.Spec.SplitCmd

/-!
# The signal commands

`hup <name>`, `term <name>` and the other signal words have a branch of their own in
`handle_control_command`. They do what `signal <name> <number>` does with the number of the signal.

## Key results

- `signalWord_number`: the number of every signal word is one that `signal` accepts
- `shortcut_agrees`: the two commands have the same effect and the same reply
-/

namespace SvcRs

section

variable {word : Bytes}

/-- The words that are names of signals. -/
theorem signalFromName_words (h : signalFromName word ≠ 0) :
    word ∈ [bytesOf "hup", bytesOf "int", bytesOf "term", bytesOf "kill", bytesOf "usr1",
      bytesOf "usr2", bytesOf "quit", bytesOf "alrm", bytesOf "cont"] := by
  by_contra hnone
  simp only [List.mem_cons, List.not_mem_nil, or_false, not_or] at hnone
  simp [signalFromName, hnone] at h

/-- Their numbers are read back by `signal`. -/
theorem signalWord_number (h : signalFromName word ≠ 0) :
    parseRequest word = .shortcut (signalFromName word) ∧
      parseSignum (Decimal.ofInt (signalFromName word)) = some (signalFromName word).toNat ∧
      ((signalFromName word).toNat : Int) = signalFromName word := by
  have hwords := signalFromName_words h
  simp only [List.mem_cons, List.not_mem_nil, or_false] at hwords
  rcases hwords with rfl | rfl | rfl | rfl | rfl | rfl | rfl | rfl | rfl <;> decide

variable {line₁ line₂ arg name : Bytes}

/-- A signal word with the name of a service, and `signal` with that name and the number of the
    signal, whatever blanks stand in between and at the end. -/
theorem shortcut_agrees (hword : signalFromName word ≠ 0) (hname : name ≠ [])
    (h₁ : SplitsInto line₁ word name) (h₂ : SplitsInto line₂ (bytesOf "signal") arg)
    (harg : SplitsInto arg name (Decimal.ofInt (signalFromName word))) (w : World) :
    handleControlCommand line₁ w = handleControlCommand line₂ w := by
  obtain ⟨hrequest, hnumber, hsig⟩ := signalWord_number hword
  have hsame : respond line₁ w = respond line₂ w := by
    have hsignal : parseRequest (bytesOf "signal") = .signal := by decide
    have hne : Decimal.ofInt (signalFromName word) ≠ [] := by
      intro hnil
      rw [hnil] at hnumber
      cases hnumber
    have hargs : arg ≠ [] := by
      rintro rfl
      have hnone : [] = name := congrArg Prod.fst (splitCmd_of_splits harg)
      exact hname hnone.symm
    simp only [respond, splitCmd_of_splits h₁, splitCmd_of_splits h₂, hrequest, hsignal]
    simp only [signalCommand, splitCmd_of_splits harg, hname, hne, hargs, hnumber, hsig]
    -- the name is not empty, so that the two usage texts do not matter
    simp only [withService, hname, if_false]
    rfl
  simp only [handleControlCommand, Sup.bind_apply, hsame]

end

/-- `term a` and `signal a 15`. -/
theorem shortcut_agrees_term :
    handleControlCommand (bytesOf "term a\n") plainStarted =
      handleControlCommand (bytesOf "signal  a 15") plainStarted := by
  have hword : signalFromName (bytesOf "term") ≠ 0 := by decide
  -- each of the lines is split as the code splits it
  have hsplits : ∀ line cmd arg, splitCmd line = (cmd, arg) → SplitsInto line cmd arg := by
    intro line cmd arg h
    have hsplit := splits_splitCmd line
    rwa [h] at hsplit
  have h₁ : SplitsInto (bytesOf "term a\n") (bytesOf "term") (bytesOf "a") :=
    hsplits _ _ _ (by decide +kernel)
  have h₂ : SplitsInto (bytesOf "signal  a 15") (bytesOf "signal") (bytesOf "a 15") :=
    hsplits _ _ _ (by decide +kernel)
  have harg : SplitsInto (bytesOf "a 15") (bytesOf "a")
      (Decimal.ofInt (signalFromName (bytesOf "term"))) := hsplits _ _ _ (by decide +kernel)
  exact shortcut_agrees hword (by decide) h₁ h₂ harg plainStarted

end SvcRs
