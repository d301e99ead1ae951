import Shellbox.Proofs.Command.Effects
import Shellbox.Proofs.Filesystem.Reachable

/-!
# Commands work through operations

Commands change the filesystem by its operations alone, all done at the time of the call. So what
these operations keep is kept by every shipped command.
-/

namespace Shellbox

open Filesystem

namespace Filesystem.KeptAt

variable {now : Instant} {P : Filesystem → Prop} {fs fs' : Filesystem} {path : Option String}
  {text : String}

theorem attempt_ok (fs fs' : Filesystem) : (fs.attempt (.ok fs')).1 = fs' := rfl

theorem write (hP : KeptAt now P) (h : fs.write now path text = .ok fs') (hfs : P fs) : P fs' := by
  have hkept : P (fs.apply (.write now path text)) := hP fs _ rfl hfs
  rwa [apply, h, attempt_ok] at hkept

theorem makeDirectory (hP : KeptAt now P) (h : fs.makeDirectory now path = .ok fs') (hfs : P fs) :
    P fs' := by
  have hkept : P (fs.apply (.makeDirectory now path)) := hP fs _ rfl hfs
  rwa [apply, h, attempt_ok] at hkept

theorem makeDirectories (hP : KeptAt now P) (h : fs.makeDirectories now path = .ok fs')
    (hfs : P fs) : P fs' := by
  have hkept : P (fs.apply (.makeDirectories now path)) := hP fs _ rfl hfs
  rwa [apply, h, attempt_ok] at hkept

theorem remove {recursive : Bool} (hP : KeptAt now P)
    (h : fs.remove now path recursive = .ok fs') (hfs : P fs) : P fs' := by
  have hkept : P (fs.apply (.remove now path recursive)) := hP fs _ rfl hfs
  rwa [apply, h, attempt_ok] at hkept

theorem changeDirectory (hP : KeptAt now P) (h : fs.changeDirectory path = .ok fs') (hfs : P fs) :
    P fs' := by
  have hkept : P (fs.apply (.changeDirectory path)) := hP fs _ trivial hfs
  rwa [apply, h, attempt_ok] at hkept

theorem touchNode (hP : KeptAt now P) (path : Option String) (hfs : P fs) :
    P (fs.touchNode now path) :=
  hP fs (.touchNode now path) rfl hfs

end Filesystem.KeptAt

/-- The handler keeps of the filesystem all that the operations at the time of the call keep. -/
def Handler.Works (handler : Handler) : Prop :=
  ∀ cx s args piped P, KeptAt cx.now P → P s.fs → P (handler cx s args piped).1.fs

theorem Handler.OnlyDraws.works {handler : Handler} (h : handler.OnlyDraws) : handler.Works := by
  intro cx s args piped P _ hfs
  obtain ⟨draws, hdraws⟩ := h cx s args piped
  rwa [hdraws]

namespace Command

theorem touch_works : touch.Works := by
  intro cx s args piped P hP hfs
  simp only [touch, Handler.acting]
  split
  · exact hfs
  · refine eachOperand_induction (fun fs p fs' h => ?_) hfs args
    unfold touchOne at h
    split at h
    · cases h
      exact hP.touchNode (some p)
    · exact hP.write (ok_of_mapError h)

theorem mkdir_works : mkdir.Works := by
  intro cx s args piped P hP hfs
  simp only [mkdir, Handler.acting]
  split
  · exact hfs
  · refine eachOperand_induction (fun fs p fs' h => ?_) hfs _
    have hmade := ok_of_mapError h
    split at hmade
    · exact hP.makeDirectories hmade
    · exact hP.makeDirectory hmade

theorem rm_works : rm.Works := by
  intro cx s args piped P hP hfs
  simp only [rm, Handler.acting]
  split
  · exact hfs
  · split
    · exact hfs
    · split
      · exact hfs
      · refine eachOperand_induction (fun fs p fs' h => ?_) hfs _
        unfold removeOne at h
        split at h
        · rename_i hremove
          cases h
          exact hP.remove hremove
        · split at h
          · cases h
            exact id
          · cases h

theorem cd_works : cd.Works := by
  intro cx s args piped P hP hfs
  simp only [cd, Handler.acting]
  split
  · exact hfs
  · rename_i fs hcd
    exact hP.changeDirectory hcd hfs

theorem aliasing_works : aliasing.Works := by
  intro cx s args piped P _ hfs
  simp only [aliasing, Handler.acting]
  split
  · exact hfs
  · split <;> exact hfs

theorem history_works : history.Works := by
  intro cx s args piped P _ hfs
  simp only [history, Handler.acting]
  split <;> exact hfs

theorem changing_work : ∀ x ∈ changing, x.2.2.Works := by
  simp only [changing, List.forall_mem_cons]
  exact ⟨touch_works, mkdir_works, rm_works, cd_works, aliasing_works, history_works, by simp⟩

end Command

theorem Catalog.standard_works {name : String} {b : Builtin} (hb : standard.find? name = some b) :
    b.handler.Works := by
  obtain ⟨hmem, rfl⟩ := of_find? hb
  obtain ⟨c, hc, hhandler, -⟩ := mem_standard hmem
  rw [hhandler]
  rcases Command.shipped_cases c hc with hdraws | ⟨-, p, hp⟩
  · exact hdraws.works
  · exact Command.changing_work _ hp

end Shellbox
