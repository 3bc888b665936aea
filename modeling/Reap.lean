import Reap.Order.Atomic
import Reap.Order.Exposure
import Reap.Owned.Binding
import Reap.Owned.Delivery
import Reap.Owned.Slots
import Reap.Owned.Admission
import Reap.Fill.Atomic
import Reap.Book.Ready
import Reap.Private.Quote
import Reap.Authenticated.Repair
import Reap.Feed.Pipeline
import Reap.Gateway.Private
import Reap.Gateway.Pacing
import Reap.Gateway.ClientId
import Reap.Storage.Cut
