import Mathlib
import ImportBlock.Proofs.Rewritten

/-! # The final line feed

    A file that ends with a line feed is to end with exactly one after it was put in
    order.  It does end with one, but it may end with more: of the line feeds at the end
    of a body one is dropped, the others are copied.

    The count is taken from lines to texts.  A text put together from lines ends with as
    many line feeds as there are empty lines at the end (`endRun_unlines`), and so does a
    block put together with a body (`Block.endRun_assemble`); a file that has none gets one
    (`final_newlines_of_rewritten`). -/

namespace ImportBlock

open Text

/-! ## Runs at the end of a list -/

section

variable {α : Type} [DecidableEq α] {a : α}

/-- How often an entry stands at the end of a list, without another one in between. -/
def endRun (a : α) (as : List α) : Nat := (as.rtakeWhile (· == a)).length

theorem endRun_concat_self (as : List α) : endRun a (as ++ [a]) = endRun a as + 1 := by
  simp [endRun]

theorem endRun_concat_of_ne {b : α} (as : List α) (h : b ≠ a) : endRun a (as ++ [b]) = 0 := by
  simp [endRun, h]

/-- What stands before another entry is not counted. -/
theorem endRun_append {bs : List α} (as : List α) (h : ∃ b ∈ bs, b ≠ a) :
    endRun a (as ++ bs) = endRun a bs := by
  induction bs using List.reverseRecOn with
  | nil =>
      obtain ⟨b, hb, -⟩ := h
      cases hb
  | append_singleton bs c ih =>
      rw [← List.append_assoc]
      by_cases hc : c = a
      · subst hc
        rw [endRun_concat_self, endRun_concat_self, ih]
        obtain ⟨b, hb, hne⟩ := h
        rcases List.mem_append.1 hb with hb | hb
        · exact ⟨b, hb, hne⟩
        · exact absurd (List.mem_singleton.1 hb) hne
      · rw [endRun_concat_of_ne _ hc, endRun_concat_of_ne _ hc]

/-- A list ends with `n` copies of an entry exactly if the run at its end is that long. -/
theorem replicate_suffix_iff {as : List α} {n : Nat} :
    List.replicate n a <:+ as ↔ n ≤ endRun a as := by
  induction as using List.reverseRecOn generalizing n with
  | nil =>
      rw [List.suffix_nil, List.replicate_eq_nil_iff]
      exact Nat.le_zero.symm
  | append_singleton as c ih =>
      cases n with
      | zero => exact iff_of_true (List.nil_suffix) (Nat.zero_le _)
      | succ n =>
          rw [List.replicate_succ', List.suffix_concat_iff]
          by_cases hc : c = a
          · subst hc
            rw [endRun_concat_self, Nat.succ_le_succ_iff, ← ih]
            constructor
            · rintro (hnil | ⟨t, ht, hsuffix⟩)
              · exact absurd hnil (List.append_ne_nil_of_right_ne_nil _ (List.cons_ne_nil _ _))
              · rw [List.append_cancel_right ht]
                exact hsuffix
            · exact fun hsuffix => Or.inr ⟨_, rfl, hsuffix⟩
          · rw [endRun_concat_of_ne _ hc]
            refine iff_of_false ?_ (Nat.not_succ_le_zero n)
            rintro (hnil | ⟨t, ht, -⟩)
            · exact absurd hnil (List.append_ne_nil_of_right_ne_nil _ (List.cons_ne_nil _ _))
            · exact hc (List.singleton_inj.1 (List.append_inj' ht rfl).2).symm

theorem getLast?_eq_some_iff_endRun {as : List α} :
    as.getLast? = some a ↔ 1 ≤ endRun a as := by
  rw [← replicate_suffix_iff, List.getLast?_eq_some_iff]
  exact exists_congr fun t => eq_comm

theorem endRun_of_not_mem {as : List α} (h : a ∉ as) : endRun a as = 0 := by
  refine Nat.eq_zero_of_not_pos fun hpos => h ?_
  exact List.mem_of_getLast? (getLast?_eq_some_iff_endRun.2 hpos)

end

/-! ## Lines and texts -/

/-- **Line feeds at the end of a text** are empty lines at the end of its lines. -/
theorem endRun_unlines {ls : List Text} (hlines : ∀ l ∈ ls, newline ∉ l)
    (hfirst : ls.head? ≠ some []) : endRun newline (unlines ls) = endRun [] ls := by
  induction ls using List.reverseRecOn with
  | nil => rfl
  | append_singleton ls l ih =>
      have hl : newline ∉ l := hlines l (List.mem_append_right ls List.mem_cons_self)
      by_cases hls : ls = []
      · -- the only line is not empty
        subst hls
        have hne : l ≠ [] := fun hnil => hfirst (congrArg some hnil)
        rw [endRun_concat_of_ne [] hne]
        exact endRun_of_not_mem hl
      · have hrest := ih (fun m hm => hlines m (List.mem_append_left [l] hm)) (by
          rw [List.head?_append_of_ne_nil ls hls] at hfirst
          exact hfirst)
        rw [unlines_append hls (List.cons_ne_nil l [])]
        by_cases hne : l = []
        · subst hne
          rw [endRun_concat_self, ← hrest]
          exact endRun_concat_self _
        · rw [endRun_concat_of_ne ls hne]
          have hother : ∃ b ∈ l, b ≠ newline := by
            obtain ⟨b, hb⟩ := List.exists_mem_of_ne_nil l hne
            exact ⟨b, hb, fun heq => hl (heq ▸ hb)⟩
          show endRun newline (unlines ls ++ ([newline] ++ l)) = 0
          rw [← List.append_assoc, endRun_append _ hother]
          exact endRun_of_not_mem hl

namespace Block

/-- A block put together with a body ends with the empty lines of the body. -/
theorem endRun_assemble {imports body : List Text} (himports : ∀ l ∈ imports, ImportLine l)
    (hstart : BodyStart body) (hbody : ∀ l ∈ body, newline ∉ l) :
    endRun newline (assemble imports body) = endRun [] body := by
  have hfirst : body.head? ≠ some [] := fun hnil =>
    (hstart [] hnil).1 (trim_eq_self trimmed_nil)
  have hfirst' : imports.head? ≠ some [] := fun hnil =>
    (himports [] (List.mem_of_head? hnil)).ne_nil rfl
  rw [assemble]
  by_cases hb : body = []
  · -- the last import line is not empty
    subst hb
    rw [if_pos rfl, endRun_unlines (fun l hl => (himports l hl).oneLine) hfirst']
    exact endRun_of_not_mem fun hnil => (himports [] hnil).ne_nil rfl
  · rw [if_neg hb]
    split
    · exact endRun_unlines hbody hfirst
    · -- the first line of the body keeps what is before it apart from the end
      obtain ⟨l, ls, rfl⟩ := List.exists_cons_of_ne_nil hb
      obtain ⟨b, hmem⟩ := List.exists_mem_of_ne_nil l fun hnil => hfirst (congrArg some hnil)
      have hother : ∃ b ∈ unlines (l :: ls), b ≠ newline := by
        refine ⟨b, ?_, fun heq => hbody l List.mem_cons_self (heq ▸ hmem)⟩
        by_cases hls : ls = []
        · subst hls
          exact hmem
        · rw [unlines, join_cons l hls]
          exact List.mem_append_left _ (List.mem_append_left _ hmem)
      rw [endRun_append _ hother]
      exact endRun_unlines hbody hfirst

/-- The line feeds at the end of a rewritten text are the empty lines at the end of the
    body. -/
theorem endRun_optimize (r : Rules) {src : Text} (hne : (ofText src).declarations ≠ []) :
    endRun newline (optimize r src) = endRun [] (ofText src).body := by
  rw [optimize_eq_assemble r hne]
  exact endRun_assemble (fun l hl => importLine_of_mem_importLines hl) (bodyStart_ofText src)
    fun l hl => newline_not_mem_body hl

end Block

/-! ## Files -/

/-- A file that was not returned as it is was put in order, and got a line feed if it ended
    with none. -/
theorem optimizeFile_of_ne {r : Rules} {src : Text} (hlast : src.getLast? = some newline)
    (hchanged : optimizeFile r src ≠ src) (hne : optimizeFile r src ≠ []) :
    (Block.ofText src).declarations ≠ []
      ∧ optimizeFile r src = if endRun newline (optimize r src) = 0 then
          optimize r src ++ [newline] else optimize r src := by
  have hsame : optimize r src ≠ src := by
    intro heq
    refine hchanged ?_
    rw [optimizeFile, if_neg fun hall => hall.1 heq]
    exact heq
  have hsome : optimize r src ≠ [] := by
    intro hnil
    refine hne ?_
    rw [optimizeFile, if_neg fun hall => hall.2.1 hnil]
    exact hnil
  refine ⟨fun hnone => hsame (if_pos hnone), ?_⟩
  by_cases hrun : endRun newline (optimize r src) = 0
  · have hend : (optimize r src).getLast? ≠ some newline := fun hend =>
      absurd (getLast?_eq_some_iff_endRun.1 hend) (by omega)
    rw [if_pos hrun]
    exact if_pos ⟨hsame, hsome, hlast, hend⟩
  · have hend : (optimize r src).getLast? = some newline :=
      getLast?_eq_some_iff_endRun.2 (Nat.pos_of_ne_zero hrun)
    rw [if_neg hrun]
    exact if_neg fun hall => hall.2.2.2 hend

/-- **How many line feeds a rewritten file ends with.**  A file that ends with a line feed
    and is put in order ends with one again.  It ends with as many as there are empty lines
    at the end of its body, and with one if there are none; so it ends with two exactly if
    its body ends with two empty lines, and with exactly one otherwise. -/
theorem final_newlines_of_rewritten (r : Rules) (src : Text)
    (hlast : src.getLast? = some newline) (hchanged : optimizeFile r src ≠ src)
    (hne : optimizeFile r src ≠ []) :
    (optimizeFile r src).getLast? = some newline
      ∧ endRun newline (optimizeFile r src) = max 1 (endRun [] (Block.ofText src).body)
      ∧ ([newline, newline] <:+ optimizeFile r src ↔ [[], []] <:+ (Block.ofText src).body) := by
  obtain ⟨hread, hfile⟩ := optimizeFile_of_ne hlast hchanged hne
  have hcount : endRun newline (optimizeFile r src)
      = max 1 (endRun [] (Block.ofText src).body) := by
    rw [hfile, ← Block.endRun_optimize r hread]
    split
    · rename_i hnone
      rw [endRun_concat_self, hnone]
      rfl
    · omega
  refine ⟨getLast?_eq_some_iff_endRun.2 (by omega), hcount, ?_⟩
  have htwo : [newline, newline] <:+ optimizeFile r src
      ↔ 2 ≤ endRun newline (optimizeFile r src) := replicate_suffix_iff (n := 2)
  have hlines : [[], []] <:+ (Block.ofText src).body
      ↔ 2 ≤ endRun [] (Block.ofText src).body := replicate_suffix_iff (n := 2)
  rw [htwo, hlines, hcount]
  omega

/-- A file whose body ends with two empty lines. -/
def looseFile : Text := text "import b from 'b'\n\nrun();\n\n\n"

theorem final_newlines_of_looseFile :
    endRun newline (optimizeFile { sort := true } looseFile) = 2
      ∧ [newline, newline] <:+ optimizeFile { sort := true } looseFile := by
  obtain ⟨-, hcount, htwo⟩ := final_newlines_of_rewritten { sort := true } looseFile
    (by decide +kernel) (by decide +kernel) (by decide +kernel)
  have hbody : (Block.ofText looseFile).body = [text "run();", [], []] := by decide +kernel
  rw [hbody] at hcount htwo
  exact ⟨hcount, htwo.2 ⟨[text "run();"], rfl⟩⟩

/-- Put in order, the file changes, is not empty and ends with two line feeds. -/
theorem two_final_newlines :
    looseFile.getLast? = some newline
      ∧ optimizeFile {} looseFile = text "import b from 'b';\n\nrun();\n\n"
      ∧ optimizeFile {} looseFile ≠ looseFile
      ∧ optimizeFile {} looseFile ≠ []
      ∧ [newline, newline] <:+ optimizeFile {} looseFile := by
  have hout : optimizeFile {} looseFile = text "import b from 'b';\n\nrun();\n\n" := by
    decide +kernel
  rw [hout]
  exact ⟨by decide +kernel, rfl, by decide +kernel, by decide +kernel,
    text "import b from 'b';\n\nrun();", by decide +kernel⟩

end ImportBlock
