import AndroidCollection.Ble.Encoder
import AndroidCollection.Ble.Server
import AndroidCollection.Ble.Reconnect
import AndroidCollection.Ble.Arbitrary
import AndroidCollection.Ble.Refusals
import AndroidCollection.Ble.Ownership
import AndroidCollection.Md5.Observer
import AndroidCollection.Md5.Lengths
import AndroidCollection.Sign.Preimage
import AndroidCollection.Base64.Totality
import AndroidCollection.Security.RsaRoundTrip
import AndroidCollection.Security.Aes
import AndroidCollection.Io.BoundedMemory
import AndroidCollection.Net.Order
import AndroidCollection.Net.Classes
import AndroidCollection.Net.Masks
import AndroidCollection.Recorder.Lock
import AndroidCollection.Recorder.Path
import AndroidCollection.Recorder.Zoom
import AndroidCollection.Video.Playback
import AndroidCollection.Ui.BackStack
import AndroidCollection.Ui.Removal
import AndroidCollection.Install.Delivery
import AndroidCollection.Install.Reports
import AndroidCollection.Install.ShellInstallSync
import AndroidCollection.Ipc.Broadcast
import AndroidCollection.Permission.Answers
import AndroidCollection.Web.FileChooser
import AndroidCollection.Io.ZipInside
import AndroidCollection.Io.ZipRoundTrip
import AndroidCollection.Io.Gzip
import AndroidCollection.Io.CopyFile
import AndroidCollection.Asm.Preservation
import AndroidCollection.Asm.Builds
import AndroidCollection.Annotation.Output
import AndroidCollection.Usb.Claimed
import AndroidCollection.Ntp.NtpUtil
import AndroidCollection.Ble.Wiring
import AndroidCollection.Ble.BindList
import AndroidCollection.Ble.Scan
import AndroidCollection.Layout.Fitting
import AndroidCollection.Layout.Folding
import AndroidCollection.Net.Posts
import AndroidCollection.Net.DownloadCallback
import AndroidCollection.Video.Registry
import AndroidCollection.Loading.MyClassloader
import AndroidCollection.Dump.Handled
import AndroidCollection.Ble.HexText
import AndroidCollection.Net.UdpBroadcast
import AndroidCollection.Layout.Remeasuring
import AndroidCollection.Io.BufferedCopy
import AndroidCollection.Io.Transfer
import AndroidCollection.Io.Deletion
import AndroidCollection.Security.SignKey
import AndroidCollection.Text.Numeric
import AndroidCollection.Text.XorCipher
import AndroidCollection.Security.HexEncoders
import AndroidCollection.Crash.CrashHandler
import AndroidCollection.Image.ImageUtils
import AndroidCollection.Ui.OnDoubleClickListener
import AndroidCollection.Ui.ToastUtil
import AndroidCollection.Web.PvrAction
import AndroidCollection.Layout.RatingBar
import AndroidCollection.Layout.CutTexts
import AndroidCollection.Linker.Waking
import AndroidCollection.Linker.Delivery
import AndroidCollection.Linker.Trampolines
import AndroidCollection.Linker.Restoration
import AndroidCollection.Linker.Relocations
