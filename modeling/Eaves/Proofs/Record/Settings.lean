import Eaves.Proofs.Record.Written
import Eaves.Proofs.Zone.Ranges
import Eaves.Record.Settings

/-!
# Settings that are read

Settings that pass their checks have shares of the strip that are shares, and so do
the settings in use where none are given.
-/

namespace Eaves

open Number (Binary64)
open Reader

/-- What is read as a share above zero is one. -/
theorem Reader.isShare_of_shareAboveZero {value : Value} {x : Binary64}
    (read : shareAboveZero value = .valid x) : x.IsShare := by
  rcases Checked.andThen_eq_valid_iff.mp read with ⟨y, atMost, above⟩
  rcases Checked.andThen_eq_valid_iff.mp atMost with ⟨z, -, within⟩
  split at within
  · rename_i atMostOne
    cases within
    split at above
    · rename_i aboveZero
      cases above
      cases x with
      | finite share =>
          have positive : 0 < share := of_decide_eq_true aboveZero
          rcases (Bool.or_eq_true _ _).mp atMostOne with less | equal
          · have bounded : share < 1 := of_decide_eq_true less
            exact ⟨share, rfl, positive, bounded.le⟩
          · have bounded : share = 1 := of_decide_eq_true equal
            exact ⟨share, rfl, positive, bounded.le⟩
      | negativeZero => simp [Binary64.lt, Binary64.toRat] at aboveZero
      | infinite negative =>
          cases negative <;> simp [Binary64.le, Binary64.lt, Binary64.eq] at atMostOne aboveZero
      | nan => simp [Binary64.lt] at aboveZero
    · cases above
  · cases within

namespace CheckSettings

/-- The usual shares are shares. -/
theorem hasShares_usual : ({} : CheckSettings).HasShares := by
  refine ⟨⟨_, rfl, ?_, ?_⟩, ⟨_, rfl, ?_, ?_⟩⟩
  all_goals decide +kernel

theorem hasShares_of_read {value : Value} {settings : CheckSettings}
    (read : CheckSettings.read value = .valid settings) : settings.HasShares := by
  rcases of_openRecord read with ⟨es, fields⟩
  rcases Checked.seq_eq_valid_iff.mp fields with ⟨_, side, upToFeature, isSide, rfl⟩
  rcases Checked.seq_eq_valid_iff.mp upToFeature with ⟨_, feature, upToKeep, isFeature, rfl⟩
  rcases Checked.seq_eq_valid_iff.mp upToKeep with ⟨_, _, upToBelow, -, rfl⟩
  rcases Checked.seq_eq_valid_iff.mp upToBelow with ⟨_, _, upToMost, -, rfl⟩
  rcases Checked.seq_eq_valid_iff.mp upToMost with ⟨_, _, upToInterval, -, rfl⟩
  rcases Checked.seq_eq_valid_iff.mp upToInterval with ⟨_, _, upToCount, -, rfl⟩
  rcases Checked.seq_eq_valid_iff.mp upToCount with ⟨_, _, upToTolerance, -, rfl⟩
  rcases Checked.seq_eq_valid_iff.mp upToTolerance with ⟨_, _, upToContrast, -, rfl⟩
  rcases Checked.map_eq_valid_iff.mp upToContrast with ⟨_, -, rfl⟩
  constructor
  · rcases of_defaulted isFeature with rfl | ⟨_, isRead⟩
    · exact hasShares_usual.feature
    · exact isShare_of_shareAboveZero isRead
  · rcases of_defaulted isSide with rfl | ⟨_, isRead⟩
    · exact hasShares_usual.side
    · exact isShare_of_shareAboveZero isRead

/-- The deviation that keeping a remainder counts as is not negative in settings that are read. -/
theorem notNegative_keepRemainder_of_read {value : Value} {settings : CheckSettings}
    (read : CheckSettings.read value = .valid settings) :
    (Binary64.finite 0).le settings.keepRemainder = true := by
  rcases of_openRecord read with ⟨es, fields⟩
  rcases Checked.seq_eq_valid_iff.mp fields with ⟨_, _, upToFeature, -, rfl⟩
  rcases Checked.seq_eq_valid_iff.mp upToFeature with ⟨_, _, upToKeep, -, rfl⟩
  rcases Checked.seq_eq_valid_iff.mp upToKeep with ⟨_, keep, upToBelow, isKeep, rfl⟩
  rcases Checked.seq_eq_valid_iff.mp upToBelow with ⟨_, _, upToMost, -, rfl⟩
  rcases Checked.seq_eq_valid_iff.mp upToMost with ⟨_, _, upToInterval, -, rfl⟩
  rcases Checked.seq_eq_valid_iff.mp upToInterval with ⟨_, _, upToCount, -, rfl⟩
  rcases Checked.seq_eq_valid_iff.mp upToCount with ⟨_, _, upToTolerance, -, rfl⟩
  rcases Checked.seq_eq_valid_iff.mp upToTolerance with ⟨_, _, upToContrast, -, rfl⟩
  rcases Checked.map_eq_valid_iff.mp upToContrast with ⟨_, -, rfl⟩
  rcases of_defaulted isKeep with rfl | ⟨_, isRead⟩
  · show (Binary64.finite 0).le (.decimal 1 1) = true
    decide +kernel
  · exact notNegative_of_nonNegative isRead

end CheckSettings

/-- Settings of the application that are read have shares of the strip that are shares. -/
theorem AppSettings.hasShares_of_read {value : Value} {settings : AppSettings}
    (read : AppSettings.read value = .valid settings) : settings.checks.HasShares := by
  rcases of_openRecord read with ⟨es, fields⟩
  rcases Checked.seq_eq_valid_iff.mp fields with ⟨_, _, ofChecks, -, rfl⟩
  rcases Checked.seq_eq_valid_iff.mp ofChecks with ⟨_, checks, ofParser, isChecks, rfl⟩
  rcases Checked.seq_eq_valid_iff.mp ofParser with ⟨_, _, ofLogging, -, rfl⟩
  rcases Checked.map_eq_valid_iff.mp ofLogging with ⟨_, -, rfl⟩
  rcases of_defaulted isChecks with rfl | ⟨_, isRead⟩
  · exact CheckSettings.hasShares_usual
  · exact CheckSettings.hasShares_of_read isRead

end Eaves
