import Multiview.Proofs.Memory.Frames

/-!
What allocators leave in the journal. They only ever talk to the device, so that calls to the engine
are recorded by the session alone.
-/

namespace Multiview

open Outcome

namespace Platform

/-- The journal was continued with calls to the device. -/
def Grew (p p' : Platform) : Prop :=
  ∃ calls : List DeviceCall, p'.journal = calls.map Event.device ++ p.journal

theorem Grew.refl (p : Platform) : Grew p p := ⟨[], rfl⟩

theorem Grew.trans {p q r : Platform} (h : Grew p q) (h' : Grew q r) : Grew p r := by
  obtain ⟨calls, hc⟩ := h
  obtain ⟨calls', hc'⟩ := h'
  exact ⟨calls' ++ calls, by rw [hc', hc, List.map_append, List.append_assoc]⟩

theorem grew_createTexture (p : Platform) (desc : TextureDesc) :
    Grew p (p.createTexture desc).2 := by
  unfold createTexture
  split
  · exact .refl p
  · exact ⟨[.createTexture desc _], rfl⟩

theorem grew_releaseTextures (p : Platform) (textures : List TextureHandle) :
    Grew p (p.releaseTextures textures) := by
  unfold releaseTextures
  induction textures generalizing p with
  | nil => exact .refl p
  | cons texture textures ih =>
    have hone : Grew p (p.releaseTexture texture) := ⟨[.releaseTexture texture], rfl⟩
    exact hone.trans (ih _)

theorem grew_createTextures (desc : TextureDesc) (n : Nat) (made : List TextureHandle)
    (p : Platform) : Grew p (createTextures desc n made p).2 := by
  induction n generalizing made p with
  | zero => exact .refl p
  | succ n ih =>
    have hone := grew_createTexture p desc
    unfold createTextures
    split
    · rename_i p' heq
      rw [heq] at hone
      exact hone.trans (grew_releaseTextures p' _)
    · rename_i texture p' heq
      rw [heq] at hone
      exact hone.trans (ih _ p')

end Platform

open Platform

/-- A store of frames that talks to nobody but the device. -/
structure Quiet (β : Type) [FrameStore β] : Prop where
  allocate : ∀ (r : Request) (s : β) (p : Platform),
    Sound (FrameStore.allocate r s p) fun x => Grew p x.2.2
  release : ∀ (mids : List MemId) (s : β) (p : Platform),
    Grew p (FrameStore.release mids s p).2.2
  close : ∀ (s : β) (p : Platform), Grew p (FrameStore.close s p).2.2

namespace Allocator

variable {β : Type} [FrameStore β]

theorem allocate_quiet (hq : Quiet β) (r : Request) (a : Allocator β) (p : Platform) :
    Sound (a.allocate r p) fun x => Grew p x.2.2 := by
  rcases allocate_split r a p with ⟨e, h⟩ | ⟨x, -, -, h⟩ | ⟨-, -, h⟩
  · rw [h]
    exact .ok (.refl p)
  · rw [h]
    exact .ok (.refl p)
  · rw [h]
    refine .map ((hq.allocate r a.store p).mono fun x hx => ?_)
    rw [takeOver_platform]
    exact hx

theorem free_quiet (hq : Quiet β) (given : Response) (a : Allocator β) (p : Platform) :
    Grew p (a.free given p).2.2 := by
  unfold free
  split
  · exact hq.release _ _ _
  · split
    · exact hq.release _ _ _
    · exact .refl p

theorem releaseAll_quiet (hq : Quiet β) (responses : List Response)
    (answer : Except AllocError Unit) (s : β) (p : Platform) :
    Grew p (releaseAll responses answer s p).2.2 := by
  induction responses generalizing answer s p with
  | nil => exact .refl p
  | cons r rest ih =>
    have hone := hq.release r.mids s p
    unfold releaseAll
    split
    · rename_i heq
      rw [heq] at hone
      exact hone.trans (ih _ _ _)
    · rename_i heq
      rw [heq] at hone
      exact hone.trans (ih _ _ _)

theorem close_quiet (hq : Quiet β) (a : Allocator β) (p : Platform) :
    Grew p (a.close p).2.2 :=
  (releaseAll_quiet hq _ _ _ _).trans (hq.close _ _)

end Allocator

theorem quiet_host : Quiet HostFrames where
  allocate r s p := by
    refine (s.allocate_cases r p).mono ?_
    rintro x (⟨e, n, s', -, rfl⟩ | ⟨f, -, rfl⟩)
    · exact .refl p
    · exact .refl p
  release _ _ p := .refl p
  close _ p := .refl p

theorem quiet_textures : Quiet TextureFrames where
  allocate r s p := by
    refine .ok ?_
    unfold TextureFrames.allocate
    split
    · exact .refl p
    · rename_i settings hs
      split
      · exact .refl p
      · have hgrew := grew_createTextures (TextureFrames.describe settings.singleTexture r)
          (r.suggested.toNat / (TextureFrames.describe settings.singleTexture r).slices) [] p
        dsimp only
        split
        · rename_i heq
          rw [heq] at hgrew
          exact hgrew
        · rename_i heq
          rw [heq] at hgrew
          exact hgrew
  release mids s p := by
    change Grew p (s.release mids p).2.2
    unfold TextureFrames.release
    split
    · exact .refl p
    · split
      · exact .refl p
      · exact grew_releaseTextures p _
  close s p := grew_releaseTextures p _

namespace MixedFrames

theorem allocate_quiet (r : Request) (s : MixedFrames) (p : Platform) :
    Sound (s.allocate r p) fun x => Grew p x.2.2 := by
  unfold allocate
  split
  · refine (Allocator.allocate_quiet quiet_textures r _ p).bind ?_
    rintro ⟨answer, textures, p'⟩ hg
    cases answer with
    | error e => exact .ok hg
    | ok response => exact .ok hg
  · split
    · exact .ok (Grew.refl p)
    · refine (Allocator.allocate_quiet quiet_host r _ p).bind ?_
      rintro ⟨answer, host, p'⟩ hg
      cases answer with
      | error e => exact .ok hg
      | ok response => exact .ok hg

theorem release_quiet (mids : List MemId) (s : MixedFrames) (p : Platform) :
    Grew p (s.release mids p).2.2 := by
  unfold release
  split
  · exact .refl p
  · rename_i first rest
    split
    · split
      · exact .refl p
      · rename_i textures _
        have hfree := Allocator.free_quiet quiet_textures ⟨0, first :: rest⟩ textures p
        split
        · rename_i heq
          rw [heq] at hfree
          exact hfree
        · rename_i heq
          rw [heq] at hfree
          exact hfree
    · split
      · exact .refl p
      · rename_i host _
        have hfree := Allocator.free_quiet quiet_host ⟨0, first :: rest⟩ host p
        split
        · rename_i heq
          rw [heq] at hfree
          exact hfree
        · rename_i heq
          rw [heq] at hfree
          exact hfree

theorem closeTextures_quiet (s : MixedFrames) (p : Platform) : Grew p (s.closeTextures p).2.2 := by
  unfold closeTextures
  split
  · exact .refl p
  · exact Allocator.close_quiet quiet_textures _ p

theorem closeHost_quiet (s : MixedFrames) (p : Platform) : Grew p (s.closeHost p).2.2 := by
  unfold closeHost
  split
  · exact .refl p
  · exact Allocator.close_quiet quiet_host _ p

/-- Textures are closed first, and host frames only if that worked. -/
theorem close_quiet (s : MixedFrames) (p : Platform) : Grew p (s.close p).2.2 := by
  have htextures := closeTextures_quiet s p
  unfold close
  split
  · rename_i heq
    rw [heq] at htextures
    exact htextures
  · rename_i s' p' heq
    rw [heq] at htextures
    have hhost := closeHost_quiet s' p'
    split
    · rename_i heq'
      rw [heq'] at hhost
      exact htextures.trans hhost
    · rename_i heq'
      rw [heq'] at hhost
      exact htextures.trans hhost

end MixedFrames

theorem quiet_mixed : Quiet MixedFrames where
  allocate := MixedFrames.allocate_quiet
  release := MixedFrames.release_quiet
  close := MixedFrames.close_quiet

end Multiview
