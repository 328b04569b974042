import Mathlib.Data.List.TakeDrop
import SvcRs.Spec.PathBuilder
import SvcRs.Spec.Run

/-!
# The reply to `list`

The status lines of all active services go through one `CStrBuf`, so the reply has at most
`PATH_BUF - 1` bytes, although there is room for `RESP_BUF` of them in the response buffer.

## Key results

- `listServices_eq`: what the reply is
- `list_complete_iff`: when it shows every service
- `list_cut`: twelve services that do not fit
-/

namespace SvcRs

/-- The status lines of the active services in the order of their slots. -/
def activeLines (w : World) (now : Int) : List Bytes :=
  (w.slots.filter fun i => (w.svc i).active).map fun i => formatServiceStatus (w.svc i) now

/-- All the lines. -/
def listing (w : World) (now : Int) : Bytes := (activeLines w now).flatten

section

variable {w : World} {line : Bytes}

/-- A line of the listing has no NUL. -/
theorem formatServiceStatus_noNul (s : Service) (now : Int) : 0 ∉ formatServiceStatus s now := by
  intro h
  unfold formatServiceStatus at h
  exact CStrBuf.noNul _ (List.mem_of_mem_take h)

/-- The loop over the services pushes their lines one after the other. -/
theorem pushLines_holds (w : World) (now : Int) (is : List Nat) {p : CStrBuf} {b : Bytes}
    (h : p.Holds b) :
    (is.foldl (fun p i => if (w.svc i).active then p.push (formatServiceStatus (w.svc i) now) else p)
      p).Holds (b ++ ((is.filter fun i => (w.svc i).active).map fun i =>
        formatServiceStatus (w.svc i) now).flatten) := by
  induction is generalizing p b with
  | nil => simpa using h
  | cons i is ih =>
    rw [List.foldl_cons, List.filter_cons]
    -- only active services have a line
    split
    · rw [List.map_cons, List.flatten_cons, ← List.append_assoc]
      exact ih (h.push _)
    · exact ih h

/-- The reply is the listing, cut to the size of the path builder. -/
theorem listServices_eq (w : World) (now : Int) :
    listServices w now = (listing w now).take (pathBuf - 1) := by
  have hholds := pushLines_holds w now w.slots CStrBuf.Holds.new
  have hclean : withoutNul (listing w now) = listing w now := by
    apply withoutNul_eq_self
    intro hmem
    obtain ⟨l, hl, hmem⟩ := List.mem_flatten.mp hmem
    obtain ⟨i, -, rfl⟩ := List.mem_map.mp hl
    exact formatServiceStatus_noNul _ _ hmem
  -- the reply buffer is larger than the string buffer that is copied into it
  have hbytes : ∀ p : CStrBuf, p.Holds (listing w now) →
      p.bytes.take respBuf = (listing w now).take (pathBuf - 1) := by
    intro p hp
    unfold CStrBuf.Holds at hp
    rw [hp, hclean, List.take_take]
    congr 1
  exact hbytes _ hholds

/-- The answer to `list`. -/
theorem list_reply (hline : parseRequest (splitCmd line).1 = .list) :
    (exec (.request line) w).k.trace.head? =
      some (.reply ((listing w (monoNow w.k).1).take (pathBuf - 1))) := by
  rw [← listServices_eq]
  simp only [exec, handleControlCommand, respond, Sup.bind_apply, hline]
  rfl

/-- For every table: that the reply to `list` consists of all the lines if they have at most
    `RESP_BUF` bytes, is true if and only if they have at most `PATH_BUF - 1` or too many. -/
theorem list_complete_iff (hline : parseRequest (splitCmd line).1 = .list) :
    ((listing w (monoNow w.k).1).length ≤ respBuf →
      (exec (.request line) w).k.trace.head? = some (.reply (listing w (monoNow w.k).1))) ↔
    (listing w (monoNow w.k).1).length ≤ pathBuf - 1 ∨
      respBuf < (listing w (monoNow w.k).1).length := by
  rw [list_reply hline, Option.some_inj, Event.reply.injEq, List.take_eq_self_iff]
  omega

end

/-! ## A dozen services -/

/-- The names of twelve services. -/
def dozenNames : List Bytes :=
  ["a", "b", "c", "d", "e", "f", "g", "h", "i", "j", "k", "l"].map bytesOf

/-- Twelve services with nothing but `run`. -/
def dozenFiles : FileSys where
  access path _ := dozenNames.any fun name => path = bytesOf "/s/" ++ name ++ bytesOf "/run"

/-- The table after the first turn of a supervisor that finds them. -/
def dozen : World := (mainLoop [{ listing := some dozenNames }] (bootOn dozenFiles)).world

/-- Their lines have 1080 bytes; the reply to `list` ends after 1023. -/
theorem list_cut : Reachable dozen ∧ parseRequest (splitCmd (bytesOf "list\n")).1 = .list ∧
    (listing dozen (monoNow dozen.k).1).length ≤ respBuf ∧
    (exec (.request (bytesOf "list\n")) dozen).k.trace.head? ≠
      some (.reply (listing dozen (monoNow dozen.k).1)) := by
  have hreach : Reachable dozen := ⟨_, _, _, mainLoop_performs _ _⟩
  have hline : parseRequest (splitCmd (bytesOf "list\n")).1 = .list := by decide
  have hlen : (listing dozen (monoNow dozen.k).1).length = 1080 := by decide +kernel
  refine ⟨hreach, hline, ?_, ?_⟩
  · rw [hlen]
    decide
  · rw [list_reply hline, Ne, Option.some_inj, Event.reply.injEq, List.take_eq_self_iff, hlen]
    decide

/-- The table with the first eleven of them. -/
def eleven : World :=
  (mainLoop [{ listing := some (dozenNames.take 11) }] (bootOn dozenFiles)).world

/-- Eleven lines have 990 bytes, and the reply is complete. -/
theorem list_complete_eleven : (exec (.request (bytesOf "list\n")) eleven).k.trace.head? =
    some (.reply (listing eleven (monoNow eleven.k).1)) := by
  have hlen : (listing eleven (monoNow eleven.k).1).length = 990 := by decide +kernel
  have hall := @list_complete_iff eleven (bytesOf "list\n") (by decide)
  rw [hlen] at hall
  exact hall.mpr (.inl (by decide)) (by decide)

end SvcRs
