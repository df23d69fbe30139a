import CronoPci.Verify.Backing
import CronoPci.Verify.BarLength
import CronoPci.Verify.BarNumbers
import CronoPci.Verify.Chunked
import CronoPci.Verify.Cleanup
import CronoPci.Verify.Config
import CronoPci.Verify.ConfigSpace
import CronoPci.Verify.DebugBuilds
import CronoPci.Verify.Directory
import CronoPci.Verify.Extraction
import CronoPci.Verify.FailedLocks
import CronoPci.Verify.Failures
import CronoPci.Verify.NodeNames
import CronoPci.Verify.Numbers
import CronoPci.Verify.Offsets
import CronoPci.Verify.PageCoverage
import CronoPci.Verify.Queries
import CronoPci.Verify.Recovery
import CronoPci.Verify.ResourceText
import CronoPci.Verify.Resume
