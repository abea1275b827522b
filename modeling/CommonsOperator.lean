import CommonsOperator.DelayedInitWakeups
import CommonsOperator.JsonPatch
import CommonsOperator.RestartCriterion
import CommonsOperator.ReconcileSettles
import CommonsOperator.NoLostChange
import CommonsOperator.StoreGate
import CommonsOperator.RestarterMutateSts
import CommonsOperator.PodEviction
import CommonsOperator.RetryResume
import CommonsOperator.PodExpiry
import CommonsOperator.ValidKeys
import CommonsOperator.PatchApplicable
import CommonsOperator.RetryBudget
import CommonsOperator.RetryProtocol
import CommonsOperator.RetryNamespaces
import CommonsOperator.ReleaseFile
import CommonsOperator.RestarterRollouts
import CommonsOperator.RestarterAdmission
import CommonsOperator.PodAttended
import CommonsOperator.IgnoredObjects
import CommonsOperator.RetryCommand
import CommonsOperator.StateFile
import CommonsOperator.RetryLogs
import CommonsOperator.RetryLogFiles
import CommonsOperator.PodEvictionRate
import CommonsOperator.RuntimeHistory
import CommonsOperator.RetryReport
